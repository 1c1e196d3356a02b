import IrcLink.Config.Reading
import Mathlib.Data.List.Pairwise

/-!
What a part of the configuration is made of. Each setting has a place of its own in the draft, and what is entered there
touches no other; so it does not matter in which order settings are entered, a setting that was not entered is still open
in the end, and a name that no setting has is not accepted.
-/

namespace IrcLink.Config

open Toml (Value)

namespace Shape

variable {α β : Type} {x : Shape α} {b : β}

theorem bind_eq_ok {f : α → Shape β} : x >>= f = .ok b ↔ ∃ a, x = .ok a ∧ f a = .ok b := by
  cases x <;> simp [bind, Except.bind]

theorem map_eq_ok {f : α → β} : f <$> x = .ok b ↔ ∃ a, x = .ok a ∧ f a = b := by
  cases x <;> simp [Functor.map, Except.map]

end Shape

structure Setting (δ : Type) where
  {α : Type}
  name : String
  read : Value → Shape α
  get : δ → Option α
  put : α → δ → δ

namespace Setting

variable {δ : Type} {s t : Setting δ} {d d' : δ} {v : Value}

def enter (s : Setting δ) (d : δ) (v : Value) : Shape δ := fill s.name (s.get d) (s.read v) fun x => s.put x d

theorem enter_eq_ok : s.enter d v = .ok d' ↔ s.get d = none ∧ ∃ x, s.read v = .ok x ∧ s.put x d = d' := by
  cases hg : s.get d with
  | none => simp [enter, fill, hg, Shape.map_eq_ok]
  | some x => simp [enter, fill, hg]

@[mk_iff]
structure Apart (s t : Setting δ) : Prop where
  name_ne : s.name ≠ t.name
  get_left : ∀ y d, s.get (t.put y d) = s.get d
  get_right : ∀ x d, t.get (s.put x d) = t.get d
  put_comm : ∀ x y d, s.put x (t.put y d) = t.put y (s.put x d)

theorem Apart.symm (h : Apart s t) : Apart t s :=
  ⟨h.name_ne.symm, h.get_right, h.get_left, fun x y d => (h.put_comm y x d).symm⟩

instance : Std.Symm (@Apart δ) := ⟨fun _ _ h => h.symm⟩

theorem Apart.enter_put (h : Apart s t) (x : s.α) (d : δ) (v : Value) :
    t.enter (s.put x d) v = s.put x <$> t.enter d v := by
  cases hg : t.get d with
  | some y => simp [enter, fill, h.get_right, hg, Functor.map, Except.map]
  | none =>
    simp only [enter, fill, h.get_right, hg, Option.isSome_none, Bool.false_eq_true, if_false]
    cases t.read v <;> simp [Functor.map, Except.map, h.put_comm]

end Setting

namespace Part

variable {δ α : Type} {p : Part δ α} {ss : List (Setting δ)} {s t : Setting δ} {d d₁ d₂ d' : δ}
  {k k' : String} {v v' : Value} {es fs : List (String × Value)} {a : α}

/-- These are the settings of the part, each with a place of its own, which is open at first. -/
structure MadeOf (p : Part δ α) (ss : List (Setting δ)) : Prop where
  settings_eq : p.settings = ss.map (·.name)
  set_eq : ∀ s ∈ ss, ∀ d v, p.set d s.name v = s.enter d v
  set_unknown : ∀ d k v, k ∉ p.settings → p.set d k v = .error (.unknownField k p.settings)
  get_blank : ∀ s ∈ ss, s.get p.blank = none
  get_put : ∀ s ∈ ss, ∀ x d, s.get (s.put x d) = some x
  apart : ss.Pairwise Setting.Apart

/-- Entered with this value, the setting is what it would be had it not been entered. -/
def Presumes (p : Part δ α) (ss : List (Setting δ)) (k : String) (v : Value) : Prop :=
  ∃ s ∈ ss, s.name = k ∧ ∃ x, s.read v = .ok x ∧ ∀ d, s.get d = none → p.finish (s.put x d) = p.finish d

def enterAll (p : Part δ α) (d : δ) (es : List (String × Value)) : Shape δ :=
  es.foldlM (fun d e => p.set d e.1 e.2) d

theorem enterAll_cons : p.enterAll d ((k, v) :: es) = p.set d k v >>= fun d => p.enterAll d es := rfl

theorem enterAll_append : p.enterAll d (es ++ fs) = p.enterAll d es >>= fun d => p.enterAll d fs := List.foldlM_append

theorem read_table (p : Part δ α) (es : List (String × Value)) :
    p.read (.table es) = p.enterAll p.blank es >>= p.finish := rfl

theorem read_table_eq_ok : p.read (.table es) = .ok a ↔ ∃ d, p.enterAll p.blank es = .ok d ∧ p.finish d = .ok a :=
  Shape.bind_eq_ok

theorem read_array_eq_ok {vs : List Value} :
    p.read (.array vs) = .ok a ↔ ∃ d, p.enterAll p.blank (p.settings.zip vs) = .ok d ∧ p.finish d = .ok a := by
  refine Shape.bind_eq_ok.trans (exists_congr fun d => and_congr_right fun _ => ?_)
  cases p.finish d <;> simp

namespace MadeOf

theorem apart_of_ne (h : p.MadeOf ss) (hs : s ∈ ss) (ht : t ∈ ss) (hne : s.name ≠ t.name) : s.Apart t :=
  h.apart.forall hs ht fun hst => hne (hst ▸ rfl)

theorem eq_of_name (h : p.MadeOf ss) (hs : s ∈ ss) (ht : t ∈ ss) (hn : s.name = t.name) : s = t := by
  by_contra hne
  exact (h.apart.forall hs ht hne).name_ne hn

theorem exists_setting (h : p.MadeOf ss) (hk : k ∈ p.settings) : ∃ s ∈ ss, s.name = k := by
  rw [h.settings_eq] at hk
  exact List.mem_map.mp hk

theorem set_eq_ok (h : p.MadeOf ss) :
    p.set d k v = .ok d' ↔ ∃ s ∈ ss, s.name = k ∧ s.get d = none ∧ ∃ x, s.read v = .ok x ∧ s.put x d = d' := by
  constructor
  · intro hset
    by_cases hk : k ∈ p.settings
    · obtain ⟨s, hs, rfl⟩ := h.exists_setting hk
      rw [h.set_eq s hs] at hset
      exact ⟨s, hs, rfl, Setting.enter_eq_ok.mp hset⟩
    · rw [h.set_unknown d k v hk] at hset
      simp at hset
  · rintro ⟨s, hs, rfl, hx⟩
    rw [h.set_eq s hs]
    exact Setting.enter_eq_ok.mpr hx

theorem set_swap (h : p.MadeOf ss) (h₁ : p.set d k v = .ok d₁) (h₂ : p.set d₁ k' v' = .ok d₂) :
    ∃ d₁', p.set d k' v' = .ok d₁' ∧ p.set d₁' k v = .ok d₂ := by
  obtain ⟨s, hs, rfl, hopen, x, hx, rfl⟩ := h.set_eq_ok.mp h₁
  obtain ⟨t, ht, rfl, hopen', y, hy, rfl⟩ := h.set_eq_ok.mp h₂
  have hne : s.name ≠ t.name := by
    intro hn
    obtain rfl := h.eq_of_name hs ht hn
    rw [h.get_put s hs] at hopen'
    exact absurd hopen' nofun
  have hst := h.apart_of_ne hs ht hne
  rw [hst.get_right] at hopen'
  refine ⟨t.put y d, h.set_eq_ok.mpr ⟨t, ht, rfl, hopen', y, hy, rfl⟩, ?_⟩
  refine h.set_eq_ok.mpr ⟨s, hs, rfl, (hst.get_left y d).trans hopen, x, hx, hst.put_comm x y d⟩

theorem enterAll_perm (h : p.MadeOf ss) (hp : es.Perm fs) (he : p.enterAll d es = .ok d') : p.enterAll d fs = .ok d' := by
  induction hp generalizing d with
  | nil => exact he
  | cons e _ ih =>
    obtain ⟨d₁, h₁, he⟩ := Shape.bind_eq_ok.mp he
    exact Shape.bind_eq_ok.mpr ⟨d₁, h₁, ih he⟩
  | swap e f es =>
    obtain ⟨d₁, h₁, he⟩ := Shape.bind_eq_ok.mp he
    obtain ⟨d₂, h₂, he⟩ := Shape.bind_eq_ok.mp he
    obtain ⟨d₁', h₁', h₂'⟩ := h.set_swap h₁ h₂
    exact Shape.bind_eq_ok.mpr ⟨d₁', h₁', Shape.bind_eq_ok.mpr ⟨d₂, h₂', he⟩⟩
  | trans _ _ ih₁ ih₂ => exact ih₂ (ih₁ he)

theorem set_congr (h : p.MadeOf ss) (hv : ∀ s ∈ ss, ∀ x, s.read v = .ok x → s.read v' = .ok x)
    (hset : p.set d k v = .ok d') : p.set d k v' = .ok d' := by
  obtain ⟨s, hs, hn, hopen, x, hx, hput⟩ := h.set_eq_ok.mp hset
  exact h.set_eq_ok.mpr ⟨s, hs, hn, hopen, x, hv s hs x hx, hput⟩

theorem enterAll_congr (h : p.MadeOf ss) (hv : ∀ s ∈ ss, ∀ x, s.read v = .ok x → s.read v' = .ok x)
    (he : p.enterAll d (es ++ (k, v) :: fs) = .ok d') : p.enterAll d (es ++ (k, v') :: fs) = .ok d' := by
  rw [enterAll_append] at he ⊢
  obtain ⟨d₁, h₁, he⟩ := Shape.bind_eq_ok.mp he
  obtain ⟨d₂, h₂, he⟩ := Shape.bind_eq_ok.mp he
  exact Shape.bind_eq_ok.mpr ⟨d₁, h₁, Shape.bind_eq_ok.mpr ⟨d₂, h.set_congr hv h₂, he⟩⟩

theorem read_congr (h : p.MadeOf ss) (hs : s ∈ ss) (hv : s.read v = s.read v') :
    p.read (.table (es ++ (s.name, v) :: fs)) = p.read (.table (es ++ (s.name, v') :: fs)) := by
  have hset (d : δ) : p.set d s.name v = p.set d s.name v' := by
    rw [h.set_eq s hs, h.set_eq s hs, Setting.enter, Setting.enter, hv]
  simp only [read_table, enterAll_append, enterAll_cons, hset]

theorem set_put (h : p.MadeOf ss) (hs : s ∈ ss) (hk : k ≠ s.name) (x : s.α) :
    p.set (s.put x d) k v = s.put x <$> p.set d k v := by
  by_cases hks : k ∈ p.settings
  · obtain ⟨t, ht, rfl⟩ := h.exists_setting hks
    rw [h.set_eq t ht, h.set_eq t ht]
    exact (h.apart_of_ne hs ht hk.symm).enter_put x d v
  · rw [h.set_unknown _ k v hks, h.set_unknown d k v hks]
    rfl

theorem enterAll_put (h : p.MadeOf ss) (hs : s ∈ ss) (hk : ∀ e ∈ es, e.1 ≠ s.name) (x : s.α) :
    p.enterAll (s.put x d) es = s.put x <$> p.enterAll d es := by
  induction es generalizing d with
  | nil => rfl
  | cons e es ih =>
    obtain ⟨he, hes⟩ := List.forall_mem_cons.mp hk
    rw [enterAll_cons, enterAll_cons, h.set_put hs he]
    cases p.set d e.1 e.2 with
    | error f => rfl
    | ok d₁ => exact ih hes

theorem get_enterAll (h : p.MadeOf ss) (hs : s ∈ ss) (hk : ∀ e ∈ es, e.1 ≠ s.name) (he : p.enterAll d es = .ok d') :
    s.get d' = s.get d := by
  induction es generalizing d with
  | nil =>
    obtain rfl := Except.ok.inj he
    rfl
  | cons e es ih =>
    obtain ⟨hne, hes⟩ := List.forall_mem_cons.mp hk
    obtain ⟨d₁, h₁, he⟩ := Shape.bind_eq_ok.mp he
    obtain ⟨t, ht, hn, -, y, -, rfl⟩ := h.set_eq_ok.mp h₁
    rw [ih hes he]
    exact (h.apart_of_ne hs ht fun hst => hne (hn.symm.trans hst.symm)).get_left y d

theorem read_presumed (h : p.MadeOf ss) (hv : p.Presumes ss k v) (hk : ∀ e ∈ es ++ fs, e.1 ≠ k) :
    p.read (.table (es ++ (k, v) :: fs)) = p.read (.table (es ++ fs)) := by
  obtain ⟨s, hs, rfl, x, hx, hfinish⟩ := hv
  obtain ⟨hes, hfs⟩ := List.forall_mem_append.mp hk
  rw [read_table, read_table, enterAll_append, enterAll_append]
  cases hd : p.enterAll p.blank es with
  | error e => rfl
  | ok d =>
    have hopen : s.get d = none := (h.get_enterAll hs hes hd).trans (h.get_blank s hs)
    have hset : p.set d s.name v = .ok (s.put x d) := h.set_eq_ok.mpr ⟨s, hs, rfl, hopen, x, hx, rfl⟩
    change (p.enterAll d ((s.name, v) :: fs) >>= p.finish) = p.enterAll d fs >>= p.finish
    rw [enterAll_cons, hset]
    change (p.enterAll (s.put x d) fs >>= p.finish) = p.enterAll d fs >>= p.finish
    rw [h.enterAll_put hs hfs]
    cases hd' : p.enterAll d fs with
    | error e => rfl
    | ok d' => exact hfinish d' ((h.get_enterAll hs hfs hd').trans hopen)

theorem read_all_presumed (h : p.MadeOf ss) (hes : ∀ e ∈ es, p.Presumes ss e.1 e.2) (hk : (es.map (·.1)).Nodup) :
    p.read (.table es) = p.read (.table []) := by
  induction es with
  | nil => rfl
  | cons e es ih =>
    obtain ⟨hv, hes⟩ := List.forall_mem_cons.mp hes
    obtain ⟨hne, hk⟩ := List.nodup_cons.mp hk
    rw [← ih hes hk]
    change p.read (.table ([] ++ e :: es)) = p.read (.table ([] ++ es))
    refine h.read_presumed hv fun f hf hfe => hne ?_
    exact List.mem_map.mpr ⟨f, hf, hfe⟩

theorem of_enterAll (h : p.MadeOf ss) (he : p.enterAll d es = .ok d') :
    ∀ e ∈ es, ∃ s ∈ ss, s.name = e.1 ∧ ∃ x, s.read e.2 = .ok x := by
  induction es generalizing d with
  | nil => exact nofun
  | cons e es ih =>
    obtain ⟨d₁, h₁, he⟩ := Shape.bind_eq_ok.mp he
    obtain ⟨s, hs, hn, -, x, hx, -⟩ := h.set_eq_ok.mp h₁
    exact List.forall_mem_cons.mpr ⟨⟨s, hs, hn, x, hx⟩, ih he⟩

theorem of_read (h : p.MadeOf ss) (hr : p.read (.table es) = .ok a) (he : (k, v) ∈ es) :
    ∃ s ∈ ss, s.name = k ∧ ∃ x, s.read v = .ok x := by
  obtain ⟨d, hd, -⟩ := read_table_eq_ok.mp hr
  exact h.of_enterAll hd _ he

theorem mem_settings_of_read (h : p.MadeOf ss) (hr : p.read (.table es) = .ok a) (he : (k, v) ∈ es) : k ∈ p.settings := by
  obtain ⟨s, hs, rfl, -⟩ := h.of_read hr he
  rw [h.settings_eq]
  exact List.mem_map_of_mem hs

end MadeOf

end Part

namespace Server

def places : List (Setting Draft) := [
  { name := "host", read := text, get := Draft.host, put := fun x d => { d with host := some x } },
  { name := "port", read := natural "u16" 16, get := Draft.port, put := fun x d => { d with port := some x } }]

theorem part_madeOf : part.MadeOf places where
  settings_eq := rfl
  set_eq := by simp [places, part, Setting.enter]
  set_unknown d k v hk := by
    simp only [part] at hk ⊢
    split <;> simp_all
  get_blank := by simp [places, part]
  get_put := by simp [places]
  apart := by simp [places, Setting.apart_iff]

end Server

namespace Identity

def places : List (Setting Draft) := [
  { name := "nicks", read := sequence text, get := Draft.nicks, put := fun x d => { d with nicks := some x } },
  { name := "name", read := text, get := Draft.name, put := fun x d => { d with name := some x } },
  { name := "login", read := text, get := Draft.login, put := fun x d => { d with login := some x } }]

theorem part_madeOf : part.MadeOf places where
  settings_eq := rfl
  set_eq := by simp [places, part, Setting.enter]
  set_unknown d k v hk := by
    simp only [part] at hk ⊢
    split <;> simp_all
  get_blank := by simp [places, part]
  get_put := by simp [places]
  apart := by simp [places, Setting.apart_iff]

end Identity

namespace Channel

def places : List (Setting Draft) := [
  { name := "name", read := text, get := Draft.name, put := fun x d => { d with name := some x } },
  { name := "key", read := text, get := Draft.key, put := fun x d => { d with key := some x } }]

theorem part_madeOf : part.MadeOf places where
  settings_eq := rfl
  set_eq := by simp [places, part, Setting.enter]
  set_unknown d k v hk := by
    simp only [part] at hk ⊢
    split <;> simp_all
  get_blank := by simp [places, part]
  get_put := by simp [places]
  apart := by simp [places, Setting.apart_iff]

end Channel

namespace Tuning

def places : List (Setting Draft) := [
  { name := "buffer_size", read := natural "usize" 64, get := Draft.bufferSize,
    put := fun x d => { d with bufferSize := some x } },
  { name := "poll_timeout_ms", read := natural "u64" 64, get := Draft.pollTimeout,
    put := fun x d => { d with pollTimeout := some x } },
  { name := "retry_delay_ms", read := natural "u64" 64, get := Draft.retryDelay,
    put := fun x d => { d with retryDelay := some x } },
  { name := "connect_timeout_ms", read := natural "u64" 64, get := Draft.connectTimeout,
    put := fun x d => { d with connectTimeout := some x } },
  { name := "tcp_nodelay", read := truth, get := Draft.noDelay, put := fun x d => { d with noDelay := some x } }]

theorem part_madeOf : part.MadeOf places where
  settings_eq := rfl
  set_eq := by simp [places, part, Setting.enter]
  set_unknown d k v hk := by
    simp only [part, settings] at hk ⊢
    split <;> simp_all
  get_blank := by simp [places, part]
  get_put := by simp [places]
  apart := by simp [places, Setting.apart_iff]

end Tuning

namespace Logging

def places : List (Setting Draft) := [
  { name := "level", read := text, get := Draft.level, put := fun x d => { d with level := some x } },
  { name := "format", read := LogFormat.read, get := Draft.format, put := fun x d => { d with format := some x } },
  { name := "timestamps", read := truth, get := Draft.timestamps,
    put := fun x d => { d with timestamps := some x } }]

theorem part_madeOf : part.MadeOf places where
  settings_eq := rfl
  set_eq := by simp [places, part, Setting.enter]
  set_unknown d k v hk := by
    simp only [part] at hk ⊢
    split <;> simp_all
  get_blank := by simp [places, part]
  get_put := by simp [places]
  apart := by simp [places, Setting.apart_iff]

end Logging

def places : List (Setting Draft) := [
  { name := "server", read := Server.part.read, get := Draft.server, put := fun x d => { d with server := some x } },
  { name := "identity", read := Identity.part.read, get := Draft.identity,
    put := fun x d => { d with identity := some x } },
  { name := "channels", read := sequence Channel.part.read, get := Draft.channels,
    put := fun x d => { d with channels := some x } },
  { name := "engine", read := Tuning.part.read, get := Draft.tuning, put := fun x d => { d with tuning := some x } },
  { name := "logging", read := Logging.part.read, get := Draft.logging,
    put := fun x d => { d with logging := some x } }]

theorem part_madeOf : part.MadeOf places where
  settings_eq := rfl
  set_eq := by simp [places, part, Setting.enter]
  set_unknown d k v hk := by
    simp only [part, settings] at hk ⊢
    split <;> simp_all
  get_blank := by simp [places, part]
  get_put := by simp [places]
  apart := by simp [places, Setting.apart_iff]

end IrcLink.Config
