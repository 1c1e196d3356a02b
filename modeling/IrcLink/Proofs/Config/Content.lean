import IrcLink.Proofs.Config.Settings
import Mathlib.Logic.Relation

/-!
Of a document only the content counts. In whatever order its tables list their entries, the configuration is the same; to
write a default out is the same as to leave it out, in a part and for a whole part; and no document is accepted that holds
a name which is none of the settings where it stands.
-/

namespace IrcLink.Config

open Toml (Value)

variable {es : List (String × Value)} {c : Config}

theorem ofEntries_of_error {e : ShapeError} (h : part.read (.table es) = .error e) :
    ofEntries es = .error (.shape e) := by
  rw [ofEntries, h]
  rfl

theorem ofEntries_of_ok (h : part.read (.table es) = .ok c) :
    ofEntries es = (c.validate.mapError .invalid).map fun _ => c := by
  rw [ofEntries, h]
  change (c.validate.mapError LoadError.invalid >>= fun _ => pure c) = _
  cases c.validate.mapError LoadError.invalid <;> rfl

theorem ofEntries_eq_ok : ofEntries es = .ok c ↔ part.read (.table es) = .ok c ∧ c.validate = .ok () := by
  constructor
  · intro h
    cases hr : part.read (.table es) with
    | error e =>
      rw [ofEntries_of_error hr] at h
      simp at h
    | ok c' =>
      rw [ofEntries_of_ok hr] at h
      cases hv : c'.validate with
      | error e =>
        rw [hv] at h
        change Except.error (LoadError.invalid e) = _ at h
        simp at h
      | ok _ =>
        rw [hv] at h
        obtain rfl := Except.ok.inj h
        exact ⟨rfl, hv⟩
  · rintro ⟨hr, hv⟩
    rw [ofEntries_of_ok hr, hv]
    rfl

inductive Reorders : Value → Value → Prop
  | here {es fs : List (String × Value)} (h : es.Perm fs) : Reorders (.table es) (.table fs)
  | inTable {before after : List (String × Value)} {k : String} {v w : Value} (h : Reorders v w) :
      Reorders (.table (before ++ (k, v) :: after)) (.table (before ++ (k, w) :: after))
  | inArray {before after : List Value} {v w : Value} (h : Reorders v w) :
      Reorders (.array (before ++ v :: after)) (.array (before ++ w :: after))

theorem Reorders.symm {v w : Value} (h : Reorders v w) : Reorders w v := by
  induction h with
  | here h => exact .here h.symm
  | inTable _ ih => exact .inTable ih
  | inArray _ ih => exact .inArray ih

def Steady {α : Type} (read : Value → Shape α) : Prop :=
  ∀ {v w : Value}, Reorders v w → ∀ {a : α}, read v = .ok a → read w = .ok a

theorem text_steady : Steady text := by
  rintro _ _ (_ | _ | _) _ hr <;> simp [text, wrongType] at hr

theorem truth_steady : Steady truth := by
  rintro _ _ (_ | _ | _) _ hr <;> simp [truth, wrongType] at hr

theorem natural_steady (wanted : String) (bits : Nat) : Steady (natural wanted bits) := by
  rintro _ _ (_ | _ | _) _ hr <;> simp [natural, wrongType] at hr

theorem sequence_steady {α : Type} {item : Value → Shape α} (hi : Steady item) : Steady (sequence item) := by
  rintro _ _ (_ | _ | h) as hr
  · simp [sequence, wrongType] at hr
  · simp [sequence, wrongType] at hr
  · simp only [sequence, List.mapM_append, List.mapM_cons, Shape.bind_eq_ok] at hr ⊢
    obtain ⟨before, hbefore, after, ⟨a, ha, rest, hrest, hcons⟩, heq⟩ := hr
    exact ⟨before, hbefore, after, ⟨a, hi h ha, rest, hrest, hcons⟩, heq⟩

/-- Holds nothing, whose order could be another. -/
def Bare (v : Value) : Prop := v = .table [] ∨ v = .array []

theorem Reorders.eq_of_bare {v w : Value} (h : Reorders v w) (hv : Bare v) : w = v := by
  obtain rfl | rfl := hv
  · generalize hu : Value.table [] = u at h
    cases h <;> simp_all
  · generalize hu : Value.array [] = u at h
    cases h <;> simp_all

theorem Reorders.eq_of_singleton {k : String} {v w : Value} (h : Reorders (.table [(k, v)]) w) (hv : Bare v) :
    w = .table [(k, v)] := by
  generalize hu : Value.table [(k, v)] = u at h
  cases h with
  | here h =>
    obtain rfl := Value.table.inj hu
    rw [List.singleton_perm.mp h]
  | @inTable before after k' v' w h =>
    have hes := Value.table.inj hu
    cases before with
    | nil =>
      obtain ⟨⟨rfl, rfl⟩, rfl⟩ := by simpa using hes
      rw [h.eq_of_bare hv]
    | cons e before => simp at hes
  | inArray h => exact absurd hu nofun

theorem LogFormat.of_read {v : Value} {format : LogFormat} (hr : read v = .ok format) :
    (∃ name, v = .string name) ∨ ∃ name u, Bare u ∧ v = .table [(name, u)] := by
  unfold read at hr
  split at hr
  · exact .inl ⟨_, rfl⟩
  · obtain ⟨_, -, hr⟩ := Shape.bind_eq_ok.mp hr
    split at hr
    · exact .inr ⟨_, _, .inl rfl, rfl⟩
    · exact .inr ⟨_, _, .inr rfl, rfl⟩
    · exact absurd hr nofun
  · exact absurd hr nofun

theorem LogFormat.read_steady : Steady LogFormat.read := by
  intro v w h format hr
  obtain ⟨name, rfl⟩ | ⟨name, u, hu, rfl⟩ := of_read hr
  · nomatch h
  · exact h.eq_of_singleton hu ▸ hr

theorem zip_item (settings : List String) (before after : List Value) :
    (∃ es k fs, ∀ v, settings.zip (before ++ v :: after) = es ++ (k, v) :: fs) ∨
      ∃ es, ∀ v, settings.zip (before ++ v :: after) = es := by
  induction settings generalizing before with
  | nil => exact .inr ⟨[], fun _ => rfl⟩
  | cons k settings ih =>
    cases before with
    | nil => exact .inl ⟨[], k, settings.zip after, fun _ => rfl⟩
    | cons b before =>
      obtain ⟨es, k', fs, h⟩ | ⟨es, h⟩ := ih before
      · exact .inl ⟨(k, b) :: es, k', fs, fun v => congrArg ((k, b) :: ·) (h v)⟩
      · exact .inr ⟨(k, b) :: es, fun v => congrArg ((k, b) :: ·) (h v)⟩

theorem Part.MadeOf.read_steady {δ α : Type} {p : Part δ α} {ss : List (Setting δ)} (h : p.MadeOf ss)
    (hs : ∀ s ∈ ss, Steady s.read) : Steady p.read := by
  intro v w hvw a hr
  cases hvw with
  | here hp =>
    obtain ⟨d, hd, hf⟩ := Part.read_table_eq_ok.mp hr
    exact Part.read_table_eq_ok.mpr ⟨d, h.enterAll_perm hp hd, hf⟩
  | inTable hvw =>
    obtain ⟨d, hd, hf⟩ := Part.read_table_eq_ok.mp hr
    exact Part.read_table_eq_ok.mpr ⟨d, h.enterAll_congr (fun s hm _ => hs s hm hvw) hd, hf⟩
  | @inArray before after _ _ hvw =>
    obtain ⟨d, hd, hf⟩ := Part.read_array_eq_ok.mp hr
    refine Part.read_array_eq_ok.mpr ⟨d, ?_, hf⟩
    obtain ⟨es, k, fs, hz⟩ | ⟨es, hz⟩ := zip_item p.settings before after
    · rw [hz] at hd ⊢
      exact h.enterAll_congr (fun s hm _ => hs s hm hvw) hd
    · rw [hz] at hd ⊢
      exact hd

theorem Server.part_steady : Steady part.read :=
  part_madeOf.read_steady (by simp [places, text_steady, natural_steady])

theorem Identity.part_steady : Steady part.read :=
  part_madeOf.read_steady (by simp [places, text_steady, sequence_steady])

theorem Channel.part_steady : Steady part.read := part_madeOf.read_steady (by simp [places, text_steady])

theorem Tuning.part_steady : Steady part.read :=
  part_madeOf.read_steady (by simp [places, natural_steady, truth_steady])

theorem Logging.part_steady : Steady part.read :=
  part_madeOf.read_steady (by simp [places, text_steady, LogFormat.read_steady, truth_steady])

theorem part_steady : Steady part.read :=
  part_madeOf.read_steady (by
    simp [places, Server.part_steady, Identity.part_steady, sequence_steady, Channel.part_steady, Tuning.part_steady,
      Logging.part_steady])

theorem Reorders.read_iff {v w : Value} {c : Config} (h : Relation.ReflTransGen Reorders v w) :
    part.read v = .ok c ↔ part.read w = .ok c := by
  induction h with
  | refl => rfl
  | tail _ h ih => exact ih.trans ⟨part_steady h, part_steady h.symm⟩

def Server.defaults : List (String × Value) := [("port", .integer 6667)]

def Identity.defaults : List (String × Value) := [("name", .string "rpbot"), ("login", .string "rpbot")]

def Tuning.defaults : List (String × Value) := [
  ("buffer_size", .integer 2048),
  ("poll_timeout_ms", .integer 500),
  ("retry_delay_ms", .integer 30000),
  ("connect_timeout_ms", .integer 5000),
  ("tcp_nodelay", .boolean true)]

def Logging.defaults : List (String × Value) := [
  ("level", .string "info"),
  ("format", .string "pretty"),
  ("timestamps", .boolean true)]

/-- What a whole entry of the document is by default: there are no channels, and of the other two parts any of their
defaults may be written out. -/
inductive Default : String → Value → Prop
  | channels : Default "channels" (.array [])
  | engine {es : List (String × Value)} (h : es ⊆ Tuning.defaults) (hk : (es.map (·.1)).Nodup) :
      Default "engine" (.table es)
  | logging {es : List (String × Value)} (h : es ⊆ Logging.defaults) (hk : (es.map (·.1)).Nodup) :
      Default "logging" (.table es)

inductive Omits (default : String → Value → Prop) : List (String × Value) → List (String × Value) → Prop
  | entry {before after : List (String × Value)} {k : String} {v : Value} (hd : default k v)
      (hk : ∀ e ∈ before ++ after, e.1 ≠ k) : Omits default (before ++ (k, v) :: after) (before ++ after)

structure Sheet where
  name : String
  settings : List String
  defaults : List (String × Value)

/-- The parts of which there is one. The key of a channel is none by default, for which there is no value. -/
def sheets : List Sheet := [
  ⟨"server", Server.part.settings, Server.defaults⟩,
  ⟨"identity", Identity.part.settings, Identity.defaults⟩,
  ⟨"engine", Tuning.part.settings, Tuning.defaults⟩,
  ⟨"logging", Logging.part.settings, Logging.defaults⟩]

inductive LeavesOut : List (String × Value) → List (String × Value) → Prop
  | entry {es fs : List (String × Value)} (h : Omits Default es fs) : LeavesOut es fs
  | inPart {before after es fs : List (String × Value)} {p : Sheet} (hp : p ∈ sheets)
      (h : Omits (fun k v => (k, v) ∈ p.defaults) es fs) :
      LeavesOut (before ++ (p.name, .table es) :: after) (before ++ (p.name, .table fs) :: after)

/-- Somewhere in the document stands a name that is none of the settings there. -/
inductive Stray (es : List (String × Value)) : Prop
  | inDocument {k : String} {v : Value} (h : (k, v) ∈ es) (hk : k ∉ settings)
  | inPart {p : Sheet} {fs : List (String × Value)} {k : String} {v : Value} (hp : p ∈ sheets)
      (hes : (p.name, .table fs) ∈ es) (h : (k, v) ∈ fs) (hk : k ∉ p.settings)
  | inChannel {items : List Value} {fs : List (String × Value)} {k : String} {v : Value}
      (hes : ("channels", .array items) ∈ es) (hi : .table fs ∈ items) (h : (k, v) ∈ fs) (hk : k ∉ Channel.part.settings)

theorem Part.MadeOf.read_omits {δ α : Type} {p : Part δ α} {ss : List (Setting δ)} {default : String → Value → Prop}
    {es fs : List (String × Value)} (h : p.MadeOf ss) (hd : ∀ k v, default k v → p.Presumes ss k v)
    (ho : Omits default es fs) : p.read (.table es) = p.read (.table fs) := by
  cases ho with
  | entry hdv hk => exact h.read_presumed (hd _ _ hdv) hk

theorem Server.presumes : ∀ e ∈ defaults, part.Presumes places e.1 e.2 := by
  simp +contextual [defaults, Part.Presumes, places, part, natural]

theorem Identity.presumes : ∀ e ∈ defaults, part.Presumes places e.1 e.2 := by
  simp +contextual [defaults, Part.Presumes, places, part, text]

theorem Tuning.presumes : ∀ e ∈ defaults, part.Presumes places e.1 e.2 := by
  simp +contextual [defaults, Part.Presumes, places, part, natural, truth]

theorem Logging.presumes : ∀ e ∈ defaults, part.Presumes places e.1 e.2 := by
  simp +contextual [defaults, Part.Presumes, places, part, text, truth, LogFormat.read, LogFormat.ofName]

theorem presumes {k : String} {v : Value} (h : Default k v) : part.Presumes places k v := by
  cases h with
  | channels =>
    refine ⟨_, .tail _ (.tail _ (.head _)), rfl, [], rfl, fun d hd => ?_⟩
    change d.channels = none at hd
    simp [part, hd]
  | @engine es h hk =>
    have hr : Tuning.part.read (.table es) = .ok {} :=
      Tuning.part_madeOf.read_all_presumed (fun e he => Tuning.presumes e (h he)) hk
    simp +contextual [Part.Presumes, places, part, hr]
  | @logging es h hk =>
    have hr : Logging.part.read (.table es) = .ok {} :=
      Logging.part_madeOf.read_all_presumed (fun e he => Logging.presumes e (h he)) hk
    simp +contextual [Part.Presumes, places, part, hr]

structure Sheet.At (p : Sheet) (s : Setting Draft) : Prop where
  name_eq : s.name = p.name
  read_omits : ∀ {es fs}, Omits (fun k v => (k, v) ∈ p.defaults) es fs → s.read (.table es) = s.read (.table fs)
  known : ∀ {es a}, s.read (.table es) = .ok a → ∀ e ∈ es, e.1 ∈ p.settings

theorem Part.MadeOf.sheet {δ α : Type} {p : Part δ α} {ss : List (Setting δ)} {defaults : List (String × Value)}
    {name : String} {get : Draft → Option α} {put : α → Draft → Draft} (h : p.MadeOf ss)
    (hd : ∀ e ∈ defaults, p.Presumes ss e.1 e.2) : Sheet.At ⟨name, p.settings, defaults⟩ ⟨name, p.read, get, put⟩ :=
  ⟨rfl, h.read_omits fun k v => hd (k, v), fun hr _ he => h.mem_settings_of_read hr he⟩

theorem exists_place {p : Sheet} (hp : p ∈ sheets) : ∃ s ∈ places, p.At s := by
  simp only [sheets, List.mem_cons, List.not_mem_nil, or_false] at hp
  obtain rfl | rfl | rfl | rfl := hp
  · exact ⟨_, .head _, Server.part_madeOf.sheet Server.presumes⟩
  · exact ⟨_, .tail _ (.head _), Identity.part_madeOf.sheet Identity.presumes⟩
  · exact ⟨_, .tail _ (.tail _ (.tail _ (.head _))), Tuning.part_madeOf.sheet Tuning.presumes⟩
  · exact ⟨_, .tail _ (.tail _ (.tail _ (.tail _ (.head _)))), Logging.part_madeOf.sheet Logging.presumes⟩

theorem LeavesOut.read_eq {es fs : List (String × Value)} (h : LeavesOut es fs) :
    part.read (.table es) = part.read (.table fs) := by
  cases h with
  | entry h => exact part_madeOf.read_omits (fun _ _ => presumes) h
  | inPart hp h =>
    obtain ⟨s, hs, hat⟩ := exists_place hp
    rw [← hat.name_eq]
    exact part_madeOf.read_congr hs (hat.read_omits h)

theorem sequence_ok {α : Type} {item : Value → Shape α} {vs : List Value} {as : List α}
    (h : sequence item (.array vs) = .ok as) : ∀ v ∈ vs, ∃ a, item v = .ok a := by
  induction vs generalizing as with
  | nil => exact nofun
  | cons v vs ih =>
    simp only [sequence, List.mapM_cons, Shape.bind_eq_ok] at h
    obtain ⟨a, ha, rest, hrest, -⟩ := h
    exact List.forall_mem_cons.mpr ⟨⟨a, ha⟩, ih hrest⟩

theorem Stray.not_read {es : List (String × Value)} (h : Stray es) (c : Config) : part.read (.table es) ≠ .ok c := by
  intro hr
  cases h with
  | inDocument h hk => exact hk (part_madeOf.mem_settings_of_read hr h)
  | inPart hp hes h hk =>
    obtain ⟨s, hs, hat⟩ := exists_place hp
    obtain ⟨t, ht, hn, a, ha⟩ := part_madeOf.of_read hr hes
    obtain rfl := part_madeOf.eq_of_name ht hs (hn.trans hat.name_eq.symm)
    exact hk (hat.known ha _ h)
  | inChannel hes hi h hk =>
    obtain ⟨s, hs, hn, as, has⟩ := part_madeOf.of_read hr hes
    have hs' : s = _ := part_madeOf.eq_of_name hs (.tail _ (.tail _ (.head _))) hn
    subst hs'
    obtain ⟨a, ha⟩ := sequence_ok has _ hi
    exact hk (Channel.part_madeOf.mem_settings_of_read ha h)

theorem content_decides :
    -- the order of entries does not matter, in whichever tables and however often it is changed
    (∀ es fs, Relation.ReflTransGen Reorders (.table es) (.table fs) → ∀ c, ofEntries es = .ok c ↔ ofEntries fs = .ok c) ∧
    -- nor does it, for what becomes of the document, which defaults are written out
    (∀ es fs, Relation.ReflTransGen LeavesOut es fs → ofEntries es = ofEntries fs) ∧
    -- and no name is accepted that is not known where it stands
    ∀ es, Stray es → ∃ e, ofEntries es = .error (.shape e) := by
  refine ⟨fun es fs h c => ?_, fun es fs h => ?_, fun es h => ?_⟩
  · rw [ofEntries_eq_ok, ofEntries_eq_ok, Reorders.read_iff h]
  · induction h with
    | refl => rfl
    | tail _ h ih => rw [ih, ofEntries, ofEntries, h.read_eq]
  · cases hr : part.read (.table es) with
    | error e => exact ⟨e, ofEntries_of_error hr⟩
    | ok c => exact absurd hr (h.not_read c)

def terse : List (String × Value) := [
  ("server", .table [("host", .string "irc.example.net")]),
  ("identity", .table [("nicks", .array [.string "bot"])])]

def wordy : List (String × Value) := [
  ("server", .table [("host", .string "irc.example.net"), ("port", .integer 6667)]),
  ("engine", .table [("tcp_nodelay", .boolean true), ("buffer_size", .integer 2048)]),
  ("identity", .table [("nicks", .array [.string "bot"])])]

def coloured : List (String × Value) :=
  terse ++ [("channels", .array [.table [("name", .string "#open"), ("colour", .string "red")]])]

theorem content_decides_of_terse :
    Relation.ReflTransGen LeavesOut wordy terse ∧ Relation.ReflTransGen Reorders (.table terse) (.table terse.reverse) ∧
      Stray coloured ∧
      ofEntries terse = .ok ⟨⟨"irc.example.net", 6667⟩, ⟨["bot"], "rpbot", "rpbot"⟩, [], {}, {}⟩ ∧
      ofEntries wordy = ofEntries terse ∧ (∀ c, ofEntries terse = .ok c ↔ ofEntries terse.reverse = .ok c) ∧
      ∃ e, ofEntries coloured = .error (.shape e) := by
  obtain ⟨horder, hdefaults, hstray⟩ := content_decides
  have hport : Omits (fun k v => (k, v) ∈ Server.defaults)
      [("host", .string "irc.example.net"), ("port", .integer 6667)] [("host", .string "irc.example.net")] :=
    @Omits.entry _ [_] [] _ _ (.head _) (by decide)
  have hserver : LeavesOut wordy (("server", .table [("host", .string "irc.example.net")]) :: wordy.tail) :=
    @LeavesOut.inPart [] wordy.tail _ _ ⟨"server", _, Server.defaults⟩ (.head _) hport
  have hengine : Default "engine" (.table [("tcp_nodelay", .boolean true), ("buffer_size", .integer 2048)]) :=
    .engine (by simp [Tuning.defaults]) (by decide)
  have hwhole : LeavesOut (("server", .table [("host", .string "irc.example.net")]) :: wordy.tail) terse :=
    .entry (@Omits.entry _ [_] [_] _ _ hengine (by simp))
  have hout : Relation.ReflTransGen LeavesOut wordy terse := .tail (.single hserver) hwhole
  have hturned : Relation.ReflTransGen Reorders (.table terse) (.table terse.reverse) :=
    .single (.here (List.reverse_perm terse).symm)
  have hcoloured : Stray coloured := .inChannel (.tail _ (.tail _ (.head _))) (.head _) (.tail _ (.head _)) (by decide)
  exact ⟨hout, hturned, hcoloured, rfl, hdefaults _ _ hout, horder _ _ hturned, hstray _ hcoloured⟩

end IrcLink.Config
