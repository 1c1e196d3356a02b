import IrcLink.Proofs.Journal.Errands
import Mathlib.Data.List.Induction

/-!
The lookups of a journal. An engine that asks for one only when it has the result of the last leaves a journal in which
lookups and results take turns (`Journal.InTurn`).
-/

namespace IrcLink

namespace Event

def accepted? : Event → Option Lookup
  | .asked l none => some l
  | _ => none

def refused? : Event → Option LookupError
  | .asked _ refusal => refusal
  | _ => none

def collected? : Event → Option Resolution
  | .collected r => some r
  | _ => none

def looksUp : Event → Bool
  | .asked _ _ => true
  | .collected _ => true
  | _ => false

variable {e : Event}

theorem accepted_of_looksUp (e : Event) (h : e.looksUp = false) : e.accepted? = none := by
  unfold accepted?
  split
  · simp [looksUp] at h
  · rfl

theorem refused_of_looksUp (e : Event) (h : e.looksUp = false) : e.refused? = none := by
  unfold refused?
  split
  · simp [looksUp] at h
  · rfl

theorem collected_of_looksUp (e : Event) (h : e.looksUp = false) : e.collected? = none := by
  unfold collected?
  split
  · simp [looksUp] at h
  · rfl

theorem looksUp_of_foreign (h : e.isForeign = true) : e.looksUp = false := by
  unfold looksUp
  split
  all_goals first | rfl | simp [isForeign] at h

theorem looksUp_of_isErrand (h : e.isErrand = true) : e.looksUp = false := by
  unfold looksUp
  split
  all_goals first | rfl | simp [isErrand] at h

end Event

namespace Journal

variable {j : Journal} {x : Entry} {awaited : Bool}

def accepted (j : Journal) : List Lookup := j.filterMap (·.event.accepted?)

def refused (j : Journal) : List LookupError := j.filterMap (·.event.refused?)

def collected (j : Journal) : List Resolution := j.filterMap (·.event.collected?)

/-- Whether a result is awaited after a journal. A lookup that is refused brings none. -/
inductive InTurn : Journal → Bool → Prop
  | start : InTurn [] false
  | other {j : Journal} {x : Entry} {awaited : Bool} (h : InTurn j awaited) (hx : x.event.looksUp = false) :
      InTurn (j ++ [x]) awaited
  | refused {j : Journal} {x : Entry} {l : Lookup} {code : ErrorCode} (h : InTurn j false)
      (hx : x.event = .asked l (some (.submit code))) : InTurn (j ++ [x]) false
  | accepted {j : Journal} {x : Entry} {l : Lookup} (h : InTurn j false) (hx : x.event = .asked l none) :
      InTurn (j ++ [x]) true
  | collected {j : Journal} {x : Entry} {r : Resolution} (h : InTurn j true) (hx : x.event = .collected r) :
      InTurn (j ++ [x]) false

namespace InTurn

theorem append (h : InTurn j awaited) {seg : Journal} (hseg : ∀ x ∈ seg, x.event.looksUp = false) :
    InTurn (j ++ seg) awaited := by
  induction seg generalizing j with
  | nil => rwa [List.append_nil]
  | cons x seg ih =>
    rw [List.append_cons]
    exact ih (h.other (hseg x List.mem_cons_self)) fun y hy => hseg y (List.mem_cons_of_mem _ hy)

theorem accepted_length (h : InTurn j awaited) : j.accepted.length = j.collected.length + awaited.toNat := by
  have snoc (j : Journal) (x : Entry) : (j ++ [x]).accepted = j.accepted ++ x.event.accepted?.toList ∧
      (j ++ [x]).collected = j.collected ++ x.event.collected?.toList :=
    ⟨filterMap_snoc Event.accepted? j x, filterMap_snoc Event.collected? j x⟩
  induction h with
  | start => rfl
  | @other j x _ _ hx ih =>
    rw [(snoc j x).1, (snoc j x).2, Event.accepted_of_looksUp x.event hx, Event.collected_of_looksUp x.event hx]
    simpa using ih
  | @refused j x _ _ _ hx ih =>
    rw [(snoc j x).1, (snoc j x).2, hx]
    simpa [Event.accepted?, Event.collected?] using ih
  | @accepted j x _ _ hx ih =>
    rw [(snoc j x).1, (snoc j x).2, hx]
    simpa [Event.accepted?, Event.collected?] using ih
  | @collected j x _ _ hx ih =>
    rw [(snoc j x).1, (snoc j x).2, hx]
    simpa [Event.accepted?, Event.collected?] using ih

theorem before_last (h : InTurn (j ++ [x]) awaited) : ∃ awaited', InTurn j awaited' ∧
    ∀ l refusal, x.event = .asked l refusal → awaited' = false ∧ ∀ e, refusal = some e → ∃ code, e = .submit code := by
  generalize hk : j ++ [x] = k at h
  cases h with
  | start => simp at hk
  | other h hx =>
    obtain ⟨rfl, hlast⟩ := List.append_inj' hk rfl
    obtain rfl := List.singleton_inj.mp hlast
    refine ⟨awaited, h, ?_⟩
    intro l refusal he
    simp [he, Event.looksUp] at hx
  | @refused _ _ _ code h hx =>
    obtain ⟨rfl, hlast⟩ := List.append_inj' hk rfl
    obtain rfl := List.singleton_inj.mp hlast
    refine ⟨false, h, ?_⟩
    intro l refusal he
    obtain ⟨-, rfl⟩ := Event.asked.inj (he.symm.trans hx)
    exact ⟨rfl, fun e hrefused => ⟨code, (Option.some.inj hrefused).symm⟩⟩
  | accepted h hx =>
    obtain ⟨rfl, hlast⟩ := List.append_inj' hk rfl
    obtain rfl := List.singleton_inj.mp hlast
    refine ⟨false, h, ?_⟩
    intro l refusal he
    obtain ⟨-, rfl⟩ := Event.asked.inj (he.symm.trans hx)
    exact ⟨rfl, nofun⟩
  | collected h hx =>
    obtain ⟨rfl, hlast⟩ := List.append_inj' hk rfl
    obtain rfl := List.singleton_inj.mp hlast
    refine ⟨true, h, ?_⟩
    intro l refusal he
    simp [he] at hx

theorem cut {before after : Journal} (h : InTurn (before ++ x :: after) awaited) :
    ∃ awaited', InTurn before awaited' ∧
      ∀ l refusal, x.event = .asked l refusal → awaited' = false ∧ ∀ e, refusal = some e → ∃ code, e = .submit code := by
  induction after using List.reverseRecOn generalizing awaited with
  | nil => exact h.before_last
  | append_singleton after y ih =>
    have hlast : before ++ x :: (after ++ [y]) = (before ++ x :: after) ++ [y] := by simp
    rw [hlast] at h
    obtain ⟨_, h', -⟩ := h.before_last
    exact ih h'

end InTurn

end Journal

namespace World

variable {ω : Type} {S : System ω} {start w w' : World ω} {l : Lookup}

theorem Shows.of_no_lookup {α : Type} {f : Event → Option α} (hf : ∀ e, e.looksUp = false → f e = none)
    (hw : Only (·.looksUp = false) w w') : w.Shows f [] w' :=
  .of_only (fun e he => hf e (Event.looksUp_of_foreign he)) (hw.mono hf)

/-- Since the start lookups and results took turns, and the lookup of which the engine knows is the only one there is. -/
structure InTurn (start w : World ω) : Prop where
  outstanding_eq : w.shared.outstanding = w.inFlight.toNat
  turns : ∃ seg : Journal, w.journal = start.journal ++ seg ∧ seg.InTurn w.inFlight

namespace InTurn

theorem refl (hidle : w.inFlight = false) (hnone : w.shared.outstanding = 0) : w.InTurn w := by
  constructor
  · rw [hidle, hnone]
    rfl
  · rw [hidle]
    exact ⟨[], (List.append_nil _).symm, .start⟩

theorem calls {P : Event → Prop} (h : start.InTurn w) (hw : w.Calls S P w') (hP : ∀ e, P e → e.looksUp = false) :
    start.InTurn w' := by
  obtain ⟨ho, seg, hj, ht⟩ := h
  obtain ⟨seg', hj', hother⟩ := (hw.only.mono hP).entries fun _ => Event.looksUp_of_foreign
  constructor
  · rw [hw.outstanding_eq, hw.inFlight_eq, ho]
  · rw [hw.inFlight_eq]
    exact ⟨seg ++ seg', by rw [hj', hj, List.append_assoc], ht.append hother⟩

theorem collect {r : Resolution} (h : start.InTurn w) (hc : w.collect S = (some r, w')) :
    w.inFlight = true ∧ w'.inFlight = false ∧ start.InTurn w' := by
  have hawaited : w.inFlight = true := by
    have ho := collect_outstanding S hc
    rw [h.outstanding_eq] at ho
    cases hf : w.inFlight
    · simp [hf] at ho
    · rfl
  have ho := collect_outstanding S hc
  obtain ⟨-, seg, hj, ht⟩ : start.InTurn (w.letOthersAct S none) :=
    h.calls (P := fun _ => False) (.look .refl) fun _ => False.elim
  rw [letOthersAct_inFlight, hawaited] at ht
  rw [h.outstanding_eq, hawaited] at ho
  simp only [World.collect] at hc
  split at hc
  · simp at hc
  · rename_i taken rest _
    obtain ⟨hr, rfl⟩ := Prod.mk.inj hc
    obtain rfl := Option.some.inj hr
    refine ⟨hawaited, rfl, Nat.succ.inj ho, seg ++ [⟨S.time (w.letOthersAct S none).os, .collected taken⟩], ?_,
      ht.collected rfl⟩
    rw [← List.append_assoc, ← hj]
    rfl

theorem startLookup_cases (h : start.InTurn w) (hidle : w.inFlight = false) {a : Except LookupError Unit}
    (hs : startLookup S l w = (a, w')) :
    (a = .ok () ∧ w'.inFlight = true ∧ start.InTurn (w'.record S (.asked l none))) ∨
      ∃ code, a = .error (.submit code) ∧ w'.inFlight = false ∧
        start.InTurn (w'.record S (.asked l (some (.submit code)))) := by
  let time := S.time (w.call S .startThread).2.os
  have hstill : (w.call S .startThread).2.inFlight = false :=
    (letOthersAct_inFlight S w (some .startThread)).trans hidle
  obtain ⟨ho, seg, hj, ht⟩ : start.InTurn (w.call S .startThread).2 :=
    h.calls (P := (·.isErrand = true)) (.of_call nofun rfl) fun _ => Event.looksUp_of_isErrand
  rw [hstill] at ho ht
  obtain ⟨hf, -⟩ | ⟨-, ⟨code, -, hc⟩ | ⟨-, hc⟩⟩ := World.startLookup_cases S w l
  · rw [hidle] at hf
    exact absurd hf nofun
  · obtain ⟨rfl, rfl⟩ := Prod.mk.inj (hs.symm.trans hc)
    have hf : ((w.call S .startThread).2.record S (.asked l (some (.submit code)))).inFlight = false := hstill
    refine .inr ⟨code, rfl, hstill, by rw [hf]; exact ho, seg ++ [⟨time, .asked l (some (.submit code))⟩], ?_, ?_⟩
    · rw [← List.append_assoc, ← hj]
      rfl
    · rw [hf]
      exact ht.refused rfl
  · obtain ⟨rfl, rfl⟩ := Prod.mk.inj (hs.symm.trans hc)
    refine .inl ⟨rfl, rfl, ?_, seg ++ [⟨time, .asked l none⟩], ?_, ht.accepted rfl⟩
    · obtain ⟨hrunning, hresults⟩ := Nat.add_eq_zero_iff.mp ho
      change ((w.call S .startThread).2.shared.running ++ [l]).length + (w.call S .startThread).2.shared.results.length = 1
      rw [List.length_append, hrunning, hresults]
      rfl
    · rw [← List.append_assoc, ← hj]
      rfl

end InTurn

end World

end IrcLink
