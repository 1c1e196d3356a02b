import IrcLink.Dial
import IrcLink.Journal
import Mathlib.Data.List.Basic

/-!
What the engine itself did and saw. Other threads act between any two of its steps and leave entries of their own;
without these, each call of the engine adds exactly one entry to the journal, and no entry is ever changed.
-/

namespace IrcLink

def Event.isForeign : Event → Bool
  | .deed _ => true
  | .call .wake _ => true
  | _ => false

namespace Journal

def own (j : Journal) : List Event := (j.map (·.event)).filter (!·.isForeign)

@[simp]
theorem own_nil : own [] = [] := rfl

theorem own_append (j k : Journal) : own (j ++ k) = own j ++ own k := by
  rw [own, List.map_append, List.filter_append, own, own]

theorem flatMap_own {α : Type} (f : Event → List α) (hf : ∀ e, e.isForeign = true → f e = []) (j : Journal) :
    j.own.flatMap f = j.flatMap (fun e => f e.event) := by
  induction j with
  | nil => rfl
  | cons e j ih =>
    rw [← List.singleton_append, own_append, List.flatMap_append, ih, List.flatMap_append]
    congr 1
    cases hforeign : e.event.isForeign
    · simp [own, hforeign]
    · simp [own, hforeign, hf e.event hforeign]

theorem filterMap_own {α : Type} (f : Event → Option α) (hf : ∀ e, e.isForeign = true → f e = none) (j : Journal) :
    j.own.filterMap f = j.filterMap (fun e => f e.event) := by
  rw [List.filterMap_eq_flatMap_toList, List.filterMap_eq_flatMap_toList]
  refine flatMap_own (fun e => (f e).toList) ?_ j
  intro e he
  rw [hf e he, Option.toList_none]

theorem filterMap_snoc {α : Type} (f : Event → Option α) (j : Journal) (x : Entry) :
    (j ++ [x]).filterMap (fun e => f e.event) = j.filterMap (fun e => f e.event) ++ (f x.event).toList := by
  cases h : f x.event <;> simp [h]

theorem forall_of_own {P : Event → Prop} {j : Journal} (hown : ∀ e ∈ j.own, P e)
    (hforeign : ∀ e, e.isForeign = true → P e) : ∀ x ∈ j, P x.event := by
  intro x hx
  cases h : x.event.isForeign with
  | true => exact hforeign _ h
  | false =>
    apply hown
    rw [own, List.mem_filter, List.mem_map]
    exact ⟨⟨x, hx, rfl⟩, by rw [h]; rfl⟩

theorem exists_of_mem_own {j : Journal} {e : Event} (h : e ∈ j.own) : ∃ x ∈ j, x.event = e :=
  List.mem_map.mp (List.mem_filter.mp h).1

end Journal

namespace World

variable {ω : Type} (S : System ω)

/-- Between these two worlds the engine did and saw this. -/
def Does (w : World ω) (es : List Event) (w' : World ω) : Prop :=
  ∃ seg : Journal, w'.journal = w.journal ++ seg ∧ seg.own = es

namespace Does

variable {w w' w'' : World ω} {es es' : List Event}

theorem refl (w : World ω) : w.Does [] w := ⟨[], (List.append_nil _).symm, rfl⟩

theorem of_journal_eq (h : w'.journal = w.journal) : w.Does [] w' := ⟨[], by rw [h, List.append_nil], rfl⟩

theorem trans (h : w.Does es w') (h' : w'.Does es' w'') : w.Does (es ++ es') w'' := by
  obtain ⟨seg, hj, rfl⟩ := h
  obtain ⟨seg', hj', rfl⟩ := h'
  exact ⟨seg ++ seg', by rw [hj', hj, List.append_assoc], Journal.own_append _ _⟩

theorem unique (h : w.Does es w') (h' : w.Does es' w') : es = es' := by
  obtain ⟨seg, hj, rfl⟩ := h
  obtain ⟨seg', hj', rfl⟩ := h'
  rw [hj] at hj'
  rw [List.append_cancel_left hj']

end Does

def Goes (w w' : World ω) : Prop := ∃ es, w.Does es w'

namespace Goes

variable {w w' w'' : World ω}

theorem refl (w : World ω) : w.Goes w := ⟨[], .refl w⟩

theorem trans (h : w.Goes w') (h' : w'.Goes w'') : w.Goes w'' := by
  obtain ⟨es, hd⟩ := h
  obtain ⟨es', hd'⟩ := h'
  exact ⟨es ++ es', hd.trans hd'⟩

end Goes

def Only (P : Event → Prop) (w w' : World ω) : Prop := ∃ es, w.Does es w' ∧ ∀ e ∈ es, P e

namespace Only

variable {P Q : Event → Prop} {w w' w'' : World ω}

theorem refl (w : World ω) : Only P w w := ⟨[], .refl w, nofun⟩

theorem trans (h : Only P w w') (h' : Only P w' w'') : Only P w w'' := by
  obtain ⟨es, hd, he⟩ := h
  obtain ⟨es', hd', he'⟩ := h'
  refine ⟨es ++ es', hd.trans hd', ?_⟩
  intro e hm
  obtain hm | hm := List.mem_append.mp hm
  · exact he e hm
  · exact he' e hm

theorem of_does_nil (h : w.Does [] w') : Only P w w' := ⟨[], h, nofun⟩

theorem of_does {e : Event} (h : w.Does [e] w') (he : P e) : Only P w w' := ⟨[e], h, by simpa using he⟩

theorem mono (h : Only P w w') (hPQ : ∀ e, P e → Q e) : Only Q w w' := by
  obtain ⟨es, hd, he⟩ := h
  exact ⟨es, hd, fun e hm => hPQ e (he e hm)⟩

theorem goes (h : Only P w w') : w.Goes w' := by
  obtain ⟨es, hd, -⟩ := h
  exact ⟨es, hd⟩

theorem entries (h : Only P w w') (hforeign : ∀ e, e.isForeign = true → P e) :
    ∃ seg : Journal, w'.journal = w.journal ++ seg ∧ ∀ x ∈ seg, P x.event := by
  obtain ⟨_, ⟨seg, hj, rfl⟩, hn⟩ := h
  exact ⟨seg, hj, Journal.forall_of_own hn hforeign⟩

end Only

/-- What the journal between these two worlds shows of one kind of entry. -/
def Shows {α : Type} (f : Event → Option α) (w : World ω) (l : List α) (w' : World ω) : Prop :=
  ∃ seg : Journal, w'.journal = w.journal ++ seg ∧ seg.filterMap (fun x => f x.event) = l

namespace Shows

variable {α : Type} {f : Event → Option α} {w w' w'' : World ω} {l l' : List α} {es : List Event}

theorem refl (w : World ω) : w.Shows f [] w := ⟨[], (List.append_nil _).symm, rfl⟩

theorem trans (h : w.Shows f l w') (h' : w'.Shows f l' w'') : w.Shows f (l ++ l') w'' := by
  obtain ⟨seg, hj, rfl⟩ := h
  obtain ⟨seg', hj', rfl⟩ := h'
  exact ⟨seg ++ seg', by rw [hj', hj, List.append_assoc], List.filterMap_append⟩

theorem unique (h : w.Shows f l w') (h' : w.Shows f l' w') : l = l' := by
  obtain ⟨seg, hj, rfl⟩ := h
  obtain ⟨seg', hj', rfl⟩ := h'
  rw [hj] at hj'
  rw [List.append_cancel_left hj']

theorem of_does (hf : ∀ e, e.isForeign = true → f e = none) (h : w.Does es w') : w.Shows f (es.filterMap f) w' := by
  obtain ⟨seg, hj, rfl⟩ := h
  exact ⟨seg, hj, (Journal.filterMap_own f hf seg).symm⟩

theorem of_only (hf : ∀ e, e.isForeign = true → f e = none) (h : Only (f · = none) w w') : w.Shows f [] w' := by
  obtain ⟨es, hd, he⟩ := h
  rw [← List.filterMap_eq_nil_iff.mpr he]
  exact of_does hf hd

theorem record (w : World ω) (e : Event) : w.Shows f (f e).toList (w.record S e) :=
  ⟨[⟨S.time w.os, e⟩], rfl, Journal.filterMap_snoc f [] _⟩

end Shows

theorem Goes.shows {α : Type} {w w' : World ω} (h : w.Goes w') (f : Event → Option α) :
    w.Shows f ((w'.journal.drop w.journal.length).filterMap fun x => f x.event) w' := by
  obtain ⟨_, seg, hj, -⟩ := h
  refine ⟨seg, hj, ?_⟩
  rw [hj, List.drop_left]

theorem record_does {e : Event} (w : World ω) (he : e.isForeign = false) : w.Does [e] (w.record S e) :=
  ⟨[⟨S.time w.os, e⟩], rfl, by simp [Journal.own, he]⟩

theorem record_foreign {e : Event} (w : World ω) (he : e.isForeign = true) : w.Does [] (w.record S e) :=
  ⟨[⟨S.time w.os, e⟩], rfl, by simp [Journal.own, he]⟩

theorem ask_does {c : Call} (w : World ω) (hc : c ≠ .wake) :
    w.Does [.call c (w.ask S c).1] (w.ask S c).2 :=
  (Does.of_journal_eq rfl).trans (record_does S _ (by cases c <;> first | rfl | exact absurd rfl hc))

theorem act_does (w : World ω) (d : Deed) : w.Does [] (w.act S d) := by
  have hr : w.Does [] (w.record S (.deed d)) := record_foreign S w rfl
  cases d with
  | requestStop => exact hr.trans (.of_journal_eq rfl)
  | finishLookup found =>
    simp only [act]
    split
    · exact hr.trans (.of_journal_eq rfl)
    · exact hr
  | wake =>
    simp only [act]
    split
    · exact hr
    · exact hr.trans ((Does.of_journal_eq rfl).trans (record_foreign S _ rfl))

theorem letOthersAct_does (w : World ω) (next : Option Call) : w.Does [] (w.letOthersAct S next) := by
  have acts (ds : List Deed) (w : World ω) : w.Does [] (ds.foldl (act S) w) := by
    induction ds generalizing w with
    | nil => exact .refl w
    | cons d ds ih => exact (act_does S w d).trans (ih _)
  exact (Does.of_journal_eq rfl).trans (acts _ _)

theorem call_does {c : Call} (w : World ω) (hc : c ≠ .wake) : w.Does [.call c (w.call S c).1] (w.call S c).2 :=
  (letOthersAct_does S w (some c)).trans (ask_does S _ hc)

theorem wait_does {w w' : World ω} {capacity : Nat} {timeout : Option Nat} {waited : Call.Waited}
    (h : w.wait S capacity timeout = (waited, w')) :
    w.Does [.call (.wait capacity (timeout.map (min Call.longestWait))) waited] w' := by
  have hd := call_does S w (c := .wait capacity (timeout.map (min Call.longestWait))) nofun
  rw [wait] at h
  rwa [h] at hd

theorem read_does {w w' : World ω} {s : Socket} {room : Nat} {r : Call.Received}
    (h : w.call S (.read s room) = (r, w')) : w.Does [.call (.read s room) r] w' := by
  have hd := call_does S w (c := .read s room) (by simp)
  rwa [h] at hd

theorem write_does {w w' : World ω} {s : Socket} {data : Bytes} {r : Call.Sent}
    (h : w.call S (.write s data) = (r, w')) : w.Does [.call (.write s data) r] w' := by
  have hd := call_does S w (c := .write s data) (by simp)
  rwa [h] at hd

theorem now_does (w : World ω) : w.Does [] (w.now S).2 := letOthersAct_does S w none

theorem takeStop_does (w : World ω) : w.Does [.looked (w.takeStop S).1] (w.takeStop S).2 :=
  (letOthersAct_does S w none).trans ((Does.of_journal_eq rfl).trans (record_does S _ rfl))

theorem collect_does (w : World ω) :
    w.Does ((w.collect S).1.toList.map .collected) (w.collect S).2 := by
  have hl := letOthersAct_does S w none
  simp only [collect]
  split
  · exact hl
  · exact hl.trans ((Does.of_journal_eq rfl).trans (record_does S _ rfl))

end World

end IrcLink
