import IrcLink.Proofs.Journal.Lookups

/-!
What other threads leave for the engine, told from the journal alone: a flag, and on a desk the result of a lookup.
The engine takes the flag when it looks at it, and a result when it collects it. In an orderly journal
(`Journal.Orderly`) it takes what is there and nothing else, and the engine always leaves an orderly one (`World.Tells`).
-/

namespace IrcLink

namespace Event

def isStop : Event → Bool
  | .deed .requestStop => true
  | _ => false

def isLook : Event → Bool
  | .looked _ => true
  | _ => false

def isWake : Event → Bool
  | .call .wake _ => true
  | _ => false

def isReport : Event → Bool
  | .call (.wait _ _) (.events ready) => ready.any (·.token == completionToken)
  | _ => false

def isTake : Event → Bool
  | .looked _ => true
  | .collected _ => true
  | _ => false

def isApart : Event → Bool
  | .deed .wake => true
  | .deed _ => false
  | .asked _ none => false
  | .looked _ => false
  | .collected _ => false
  | _ => true

variable {e : Event}

theorem isLook_of_isTake (h : e.isTake = false) : e.isLook = false := by
  cases e with
  | looked stop => simp [isTake] at h
  | _ => rfl

theorem isTake_of_isApart (h : e.isApart = true) : e.isTake = false := by
  cases e with
  | looked stop => simp [isApart] at h
  | collected r => simp [isApart] at h
  | _ => rfl

theorem isTake_of_foreign (h : e.isForeign = true) : e.isTake = false := by
  cases e with
  | looked stop => simp [isForeign] at h
  | collected r => simp [isForeign] at h
  | _ => rfl

theorem isReport_of_foreign (h : e.isForeign = true) : e.isReport = false := by
  unfold isReport
  split
  · simp [isForeign] at h
  · rfl

end Event

/-- Where the one lookup is that there can be. -/
inductive Desk where
  | idle
  | running (l : Lookup)
  | ready (r : Resolution)

def Desk.running? : Desk → Option Lookup
  | .running l => some l
  | _ => none

def Desk.ready? : Desk → Option Resolution
  | .ready r => some r
  | _ => none

structure Pending where
  stop : Bool := false
  desk : Desk := .idle

namespace Pending

def next (k : Pending) : Event → Pending
  | .deed .requestStop => { k with stop := true }
  | .deed (.finishLookup found) => match k.desk with
    | .running l => { k with desk := .ready (l.resolve found) }
    | _ => k
  | .asked l none => { k with desk := .running l }
  | .looked _ => { k with stop := false }
  | .collected _ => { k with desk := .idle }
  | _ => k

def Allows (k : Pending) : Event → Prop
  | .asked _ none => k.desk = .idle
  | .looked stop => stop = k.stop
  | .collected r => k.desk = .ready r
  | _ => True

/-- The result that is left. A lookup that ends when none is running leaves nothing. -/
def left? (k : Pending) : Event → Option Resolution
  | .deed (.finishLookup found) => k.desk.running?.map (·.resolve found)
  | _ => none

variable {k : Pending} {e : Event}

theorem apart (h : e.isApart = true) : k.next e = k ∧ k.Allows e := by
  cases e with
  | deed d => cases d <;> first | exact ⟨rfl, trivial⟩ | simp [Event.isApart] at h
  | asked l refusal => cases refusal <;> first | exact ⟨rfl, trivial⟩ | simp [Event.isApart] at h
  | looked stop => simp [Event.isApart] at h
  | collected r => simp [Event.isApart] at h
  | _ => exact ⟨rfl, trivial⟩

theorem next_stop (k : Pending) (e : Event) : (k.next e).stop = (e.isStop || k.stop && !e.isLook) := by
  cases e with
  | deed d =>
    cases d with
    | finishLookup found => cases h : k.desk <;> simp [next, h, Event.isStop, Event.isLook]
    | _ => simp [next, Event.isStop, Event.isLook]
  | asked l refusal => cases refusal <;> simp [next, Event.isStop, Event.isLook]
  | _ => simp [next, Event.isStop, Event.isLook]

theorem next_ready (h : k.Allows e) :
    k.desk.ready?.toList ++ (k.left? e).toList = e.collected?.toList ++ (k.next e).desk.ready?.toList := by
  cases e with
  | deed d =>
    cases d with
    | finishLookup found => cases hd : k.desk <;> simp [next, left?, hd, Desk.ready?, Desk.running?, Event.collected?]
    | _ => simp [next, left?, Event.collected?]
  | asked l refusal =>
    cases refusal with
    | none =>
      have hd : k.desk = .idle := h
      simp [next, left?, hd, Desk.ready?, Event.collected?]
    | some e => simp [next, left?, Event.collected?]
  | collected r =>
    have hd : k.desk = .ready r := h
    simp [next, left?, hd, Desk.ready?, Event.collected?]
  | _ => simp [next, left?, Event.collected?]

theorem ready_of_left {r : Resolution} (h : k.left? e = some r) : (k.next e).desk = .ready r := by
  cases e with
  | deed d =>
    cases d with
    | finishLookup found =>
      cases hd : k.desk with
      | running l =>
        obtain rfl : l.resolve found = r := by simpa [left?, hd, Desk.running?] using h
        simp [next, hd]
      | _ => simp [left?, hd, Desk.running?] at h
    | _ => simp [left?] at h
  | _ => simp [left?] at h

theorem ready_stays {r : Resolution} (hk : k.desk = .ready r) (h : k.Allows e) (he : e.collected? = none) :
    (k.next e).desk = .ready r := by
  cases e with
  | deed d => cases d <;> simp [next, hk]
  | asked l refusal =>
    cases refusal with
    | none =>
      have hd : k.desk = .idle := h
      simp [hk] at hd
    | some e => exact hk
  | collected r => simp [Event.collected?] at he
  | _ => exact hk

end Pending

namespace Journal

variable {j seg before after : Journal} {x : Entry} {this that : Event → Bool}

theorem split_append (h : j ++ seg = before ++ x :: after) :
    (∃ mid, before = j ++ mid ∧ seg = mid ++ x :: after) ∨ ∃ rest, j = before ++ x :: rest ∧ after = rest ++ seg := by
  obtain ⟨mid, hb, hs⟩ | ⟨rest, hj, hs⟩ := List.append_eq_append_iff.mp h
  · exact .inl ⟨mid, hb, hs⟩
  · obtain ⟨rfl, hs⟩ | ⟨rest, rfl, hs⟩ := List.cons_eq_append_iff.mp hs
    · exact .inl ⟨[], by simpa using hj.symm, hs.symm⟩
    · exact .inr ⟨rest, hj, (List.cons.inj hs).2⟩

/-- This has happened, and that has not since. -/
def Since (this that : Event → Bool) (j : Journal) : Prop :=
  ∃ (before : Journal) (x : Entry) (after : Journal), j = before ++ x :: after ∧ this x.event = true ∧
    ∀ y ∈ after, that y.event = false

theorem since_snoc : Since this that (j ++ [x]) ↔ this x.event = true ∨ Since this that j ∧ that x.event = false := by
  constructor
  · rintro ⟨before, y, after, h, hy, hafter⟩
    obtain ⟨mid, -, hmid⟩ | ⟨rest, rfl, rfl⟩ := split_append h
    · cases mid with
      | nil =>
        obtain ⟨rfl, -⟩ := List.cons.inj hmid
        exact .inl hy
      | cons z mid => simp at hmid
    · refine .inr ⟨⟨before, y, rest, rfl, hy, ?_⟩, hafter x (by simp)⟩
      intro z hz
      exact hafter z (List.mem_append_left _ hz)
  · rintro (hx | ⟨⟨before, y, after, rfl, hy, hafter⟩, hx⟩)
    · exact ⟨j, x, [], rfl, hx, nofun⟩
    · refine ⟨before, y, after ++ [x], by simp, hy, ?_⟩
      intro z hz
      obtain hz | hz := List.mem_append.mp hz
      · exact hafter z hz
      · rwa [List.mem_singleton.mp hz]

def pending (j : Journal) : Pending := j.foldl (fun k x => k.next x.event) {}

theorem pending_snoc (j : Journal) (x : Entry) : (j ++ [x]).pending = j.pending.next x.event := by
  simp [pending]

theorem pending_stop_iff (j : Journal) : j.pending.stop = true ↔ j.Since Event.isStop Event.isLook := by
  induction j using List.reverseRecOn with
  | nil => simp [pending, Since]
  | append_singleton j x ih => simp [pending_snoc, Pending.next_stop, since_snoc, ih]

def foundAfter : Pending → Journal → List Resolution
  | _, [] => []
  | k, x :: j => (k.left? x.event).toList ++ foundAfter (k.next x.event) j

def found (j : Journal) : List Resolution := foundAfter {} j

theorem found_append (j seg : Journal) : (j ++ seg).found = j.found ++ foundAfter j.pending seg := by
  have append (j : Journal) (k : Pending) :
      foundAfter k (j ++ seg) = foundAfter k j ++ foundAfter (j.foldl (fun k x => k.next x.event) k) seg := by
    induction j generalizing k with
    | nil => simp [foundAfter]
    | cons y j ih => simp [foundAfter, ih]
  exact append j {}

/-- Whatever the engine took was there, and it asked for no lookup before it had the result of the last. -/
def Orderly (j : Journal) : Prop :=
  ∀ (before : Journal) (x : Entry) (after : Journal), j = before ++ x :: after → before.pending.Allows x.event

namespace Orderly

theorem nil : Orderly [] := by
  intro before x after h
  simp at h

theorem of_append (h : (j ++ seg).Orderly) : j.Orderly := by
  rintro before x after rfl
  exact h before x (after ++ seg) (by simp)

theorem snoc (h : j.Orderly) (hx : j.pending.Allows x.event) : (j ++ [x]).Orderly := by
  intro before y after hj
  obtain ⟨mid, rfl, hmid⟩ | ⟨rest, hj, -⟩ := split_append hj
  · cases mid with
    | nil =>
      obtain ⟨rfl, -⟩ := List.cons.inj hmid
      rwa [List.append_nil]
    | cons z mid => simp at hmid
  · exact h before y rest hj

theorem last (h : (j ++ [x]).Orderly) : j.pending.Allows x.event := h j x [] rfl

theorem found_eq (h : j.Orderly) : j.found = j.collected ++ j.pending.desk.ready?.toList := by
  have snoc (j : Journal) (x : Entry) : (j ++ [x]).collected = j.collected ++ x.event.collected?.toList :=
    filterMap_snoc Event.collected? j x
  induction j using List.reverseRecOn with
  | nil => rfl
  | append_singleton j x ih =>
    rw [found_append, foundAfter, foundAfter, List.append_nil, ih h.of_append, snoc, pending_snoc, List.append_assoc,
      List.append_assoc, Pending.next_ready h.last]

theorem ready {r : Resolution} (h : (before ++ x :: after).Orderly) (hleft : before.pending.left? x.event = some r)
    (hafter : ∀ y ∈ after, y.event.collected? = none) : (before ++ x :: after).pending.desk = .ready r := by
  induction after using List.reverseRecOn with
  | nil =>
    rw [pending_snoc]
    exact Pending.ready_of_left hleft
  | append_singleton after y ih =>
    have hlast : before ++ x :: (after ++ [y]) = (before ++ x :: after) ++ [y] := by simp
    rw [hlast] at h ⊢
    rw [pending_snoc]
    apply Pending.ready_stays
    · exact ih h.of_append fun z hz => hafter z (List.mem_append_left _ hz)
    · exact h.last
    · exact hafter y (by simp)

end Orderly

end Journal

structure Shared.Is (s : Shared) (k : Pending) : Prop where
  stop_eq : s.stop = k.stop
  running_eq : s.running = k.desk.running?.toList
  results_eq : s.results = k.desk.ready?.toList

theorem Shared.Is.idle {s : Shared} {k : Pending} (h : s.Is k) (hnone : s.outstanding = 0) : k.desk = .idle := by
  rw [Shared.outstanding, h.running_eq, h.results_eq] at hnone
  cases hd : k.desk with
  | idle => rfl
  | running l => simp [hd, Desk.running?] at hnone
  | ready r => simp [hd, Desk.ready?] at hnone

namespace World

variable {ω : Type} {S : System ω} {start w w' : World ω}

def Tells (start w : World ω) : Prop :=
  ∃ seg : Journal, w.journal = start.journal ++ seg ∧ seg.Orderly ∧ w.shared.Is seg.pending

namespace Tells

theorem refl (h : w.shared = {}) : w.Tells w := by
  refine ⟨[], (List.append_nil _).symm, .nil, ?_⟩
  rw [h]
  exact ⟨rfl, rfl, rfl⟩

theorem snoc {x : Entry} (h : start.Tells w) (hj : w'.journal = w.journal ++ [x])
    (hx : ∀ k : Pending, w.shared.Is k → k.Allows x.event ∧ w'.shared.Is (k.next x.event)) : start.Tells w' := by
  obtain ⟨seg, hseg, ho, hs⟩ := h
  obtain ⟨hallows, hs'⟩ := hx _ hs
  refine ⟨seg ++ [x], by rw [hj, hseg, List.append_assoc], ho.snoc hallows, ?_⟩
  rwa [Journal.pending_snoc]

theorem keep (h : start.Tells w) (hj : w'.journal = w.journal) (hs : ∀ k, w.shared.Is k → w'.shared.Is k) :
    start.Tells w' := by
  obtain ⟨seg, hseg, ho, hk⟩ := h
  exact ⟨seg, hj.trans hseg, ho, hs _ hk⟩

theorem record {e : Event} (h : start.Tells w) (he : e.isApart = true) : start.Tells (w.record S e) := by
  apply h.snoc (x := ⟨S.time w.os, e⟩) rfl
  intro k hk
  obtain ⟨hnext, hallows⟩ := Pending.apart (k := k) he
  rw [hnext]
  exact ⟨hallows, hk⟩

theorem ask (h : start.Tells w) (c : Call) : start.Tells (w.ask S c).2 := by
  have hos : start.Tells { w with os := (S.answer c w.os).2 } := h.keep rfl fun _ => id
  exact hos.record rfl

theorem act (h : start.Tells w) (d : Deed) : start.Tells (w.act S d) := by
  cases d with
  | requestStop =>
    apply h.snoc (x := ⟨S.time w.os, .deed .requestStop⟩) rfl
    rintro k ⟨-, hr, hs⟩
    exact ⟨trivial, rfl, hr, hs⟩
  | finishLookup found =>
    apply h.snoc (x := ⟨S.time w.os, .deed (.finishLookup found)⟩)
    · simp only [World.act]
      split <;> rfl
    · rintro k ⟨ht, hr, hs⟩
      refine ⟨trivial, ?_⟩
      cases hd : k.desk
      all_goals
        rw [hd] at hr hs
        simp only [Desk.running?, Desk.ready?, Option.toList] at hr hs
        simp only [World.act, World.record, hr, hs, Pending.next, hd]
      · exact ⟨ht, by rw [hr, hd]; rfl, by rw [hs, hd]; rfl⟩
      · exact ⟨ht, rfl, rfl⟩
      · exact ⟨ht, by rw [hr, hd]; rfl, by rw [hs, hd]; rfl⟩
  | wake =>
    have hr : start.Tells (w.record S (.deed .wake)) := h.record rfl
    simp only [World.act]
    split
    · exact hr
    · apply ask
      refine hr.keep rfl ?_
      rintro k ⟨ht, hr, hs⟩
      exact ⟨ht, hr, hs⟩

theorem letOthersAct (h : start.Tells w) (next : Option Call) : start.Tells (w.letOthersAct S next) := by
  have acts (ds : List Deed) (w : World ω) (h : start.Tells w) : start.Tells (ds.foldl (World.act S) w) := by
    induction ds generalizing w with
    | nil => exact h
    | cons d ds ih => exact ih _ (h.act d)
  exact acts _ _ (h.keep rfl fun _ => id)

theorem calls {P : Event → Prop} (h : start.Tells w) (hw : w.Calls S P w') (hP : ∀ e, P e → e.isApart = true) :
    start.Tells w' := by
  induction hw with
  | refl => exact h
  | @call w' _ c _ _ ih => exact (ih.letOthersAct (some c)).ask c
  | record _ _ he ih => exact ih.record (hP _ he)
  | look _ ih => exact ih.letOthersAct none
  | takeStop _ hl => exact absurd (hP _ (hl false)) nofun

theorem takeStop (h : start.Tells w) : start.Tells (w.takeStop S).2 := by
  let w₁ := w.letOthersAct S none
  have h₁ : start.Tells w₁ := h.letOthersAct none
  apply h₁.snoc (x := ⟨S.time w₁.os, .looked w₁.shared.stop⟩) rfl
  rintro k ⟨ht, hr, hs⟩
  exact ⟨ht, rfl, hr, hs⟩

theorem collect (h : start.Tells w) : start.Tells (w.collect S).2 := by
  let w₁ := w.letOthersAct S none
  have h₁ : start.Tells w₁ := h.letOthersAct none
  simp only [World.collect]
  split
  · exact h₁
  · rename_i r rest hresults
    apply h₁.snoc (x := ⟨S.time w₁.os, .collected r⟩) rfl
    rintro k ⟨ht, hr, hs⟩
    rw [hresults] at hs
    cases hd : k.desk with
    | ready r' =>
      rw [hd] at hr hs
      obtain ⟨rfl, rfl⟩ := List.cons.inj hs
      exact ⟨hd, ht, hr, rfl⟩
    | _ => simp [hd, Desk.ready?] at hs

theorem startLookup {l : Lookup} (h : start.Tells w) (hnone : w.shared.outstanding = 0)
    (hs : World.startLookup S l w = (.ok (), w')) : start.Tells (w'.record S (.asked l none)) := by
  have hcalled : start.Tells (w.call S .startThread).2 := (h.letOthersAct _).ask _
  have hnone : (w.call S .startThread).2.shared.outstanding = 0 := (letOthersAct_outstanding S w _).trans hnone
  obtain ⟨-, hc⟩ | ⟨-, ⟨code, -, hc⟩ | ⟨-, hc⟩⟩ := startLookup_cases S w l
  · simp [hc] at hs
  · simp [hc] at hs
  · obtain ⟨-, rfl⟩ := Prod.mk.inj (hs.symm.trans hc)
    apply hcalled.snoc (x := ⟨_, .asked l none⟩) rfl
    intro k hk
    have hd : k.desk = .idle := hk.idle hnone
    obtain ⟨ht, hr, hs⟩ := hk
    rw [hd] at hr hs
    refine ⟨hd, ht, ?_, hs⟩
    change (w.call S .startThread).2.shared.running ++ [l] = [l]
    rw [hr]
    rfl

theorem refuseLookup {l : Lookup} {e : LookupError} (h : start.Tells w)
    (hs : World.startLookup S l w = (.error e, w')) : start.Tells (w'.record S (.asked l (some e))) := by
  have hcalled : start.Tells (w.call S .startThread).2 := (h.letOthersAct _).ask _
  obtain ⟨-, hc⟩ | ⟨-, ⟨code, -, hc⟩ | ⟨-, hc⟩⟩ := startLookup_cases S w l
  · obtain ⟨-, rfl⟩ := Prod.mk.inj (hs.symm.trans hc)
    exact h.record rfl
  · obtain ⟨-, rfl⟩ := Prod.mk.inj (hs.symm.trans hc)
    exact hcalled.record rfl
  · simp [hc] at hs

theorem orderly {seg : Journal} (h : start.Tells w) (hj : w.journal = start.journal ++ seg) :
    seg.Orderly ∧ w.shared.Is seg.pending := by
  obtain ⟨seg', hj', hk⟩ := h
  rw [hj] at hj'
  rwa [List.append_cancel_left hj']

theorem ready {before after : Journal} {x : Entry} {r : Resolution} (h : start.Tells w)
    (hj : w.journal = start.journal ++ (before ++ x :: after)) (hleft : before.pending.left? x.event = some r)
    (hafter : ∀ y ∈ after, y.event.collected? = none) : w.shared.results = [r] := by
  obtain ⟨ho, hs⟩ := h.orderly hj
  rw [hs.results_eq, ho.ready hleft hafter]
  rfl

theorem results_eq {es : List Event} (h : start.Tells w) (h' : start.Tells w') (hd : w.Does es w') :
    ∃ later, w.shared.results ++ later = es.filterMap Event.collected? ++ w'.shared.results := by
  obtain ⟨seg, hj, ho, hs⟩ := h
  obtain ⟨new, hnew, rfl⟩ := hd
  have hj' : w'.journal = start.journal ++ (seg ++ new) := by rw [hnew, hj, List.append_assoc]
  obtain ⟨ho', hs'⟩ := h'.orderly hj'
  have hfound := ho'.found_eq
  have hcollected : (seg ++ new).collected = seg.collected ++ new.own.filterMap Event.collected? := by
    rw [Journal.filterMap_own _ fun _ he => Event.collected_of_looksUp _ (Event.looksUp_of_foreign he)]
    exact List.filterMap_append
  rw [Journal.found_append, ho.found_eq, hcollected, ← hs.results_eq, ← hs'.results_eq] at hfound
  simp only [List.append_assoc, List.append_cancel_left_eq] at hfound
  exact ⟨_, hfound⟩

end Tells

theorem act_stop (h : w.shared.stop = true) (d : Deed) : (w.act S d).shared.stop = true := by
  cases d with
  | requestStop => rfl
  | finishLookup found =>
    simp only [act]
    split <;> exact h
  | wake =>
    simp only [act]
    split <;> exact h

theorem takeStop_of_stop (h : w.shared.stop = true) : (w.takeStop S).1 = true := by
  have acts (ds : List Deed) (w : World ω) (h : w.shared.stop = true) : (ds.foldl (act S) w).shared.stop = true := by
    induction ds generalizing w with
    | nil => exact h
    | cons d ds ih => exact ih _ (act_stop h d)
  exact acts _ _ h

end World

end IrcLink
