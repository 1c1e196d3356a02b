import IrcLink.Script
import Mathlib.Data.List.Forall2

/-!
One lookup at a time. Whoever asks for lookups and takes results, and whenever the threads that run them are done, of all that
were accepted only the last can be without a result that was taken: either it is running, or its result lies in the one place
there is. So a thread always finds that place free, and the results come in the order of the lookups.
-/

namespace IrcLink

structure Past where
  accepted : List Lookup := []
  arrived : List Resolution := []
  collected : List Resolution := []

namespace Past

variable {ω : Type} (past : Past)

def arrive (before now : World ω) : Past :=
  { past with arrived := past.arrived ++ now.shared.results.drop before.shared.results.length }

def ask (l : Lookup) : Except LookupError Unit → Past
  | .ok () => { past with accepted := past.accepted ++ [l] }
  | .error _ => past

def collect (r : Option Resolution) : Past := { past with collected := past.collected ++ r.toList }

theorem arrive_of_eq {w w' : World ω} (h : w'.shared.results = w.shared.results) : past.arrive w w' = past := by
  rw [arrive, h, List.drop_length, List.append_nil]

theorem arrive_trans {w w' w'' : World ω} (h : w.shared.results <+: w'.shared.results)
    (h' : w'.shared.results <+: w''.shared.results) : (past.arrive w w').arrive w' w'' = past.arrive w w'' := by
  obtain ⟨new, h⟩ := h
  obtain ⟨newer, h'⟩ := h'
  rw [arrive, arrive, arrive, ← h', ← h, List.drop_left, List.drop_left, List.append_assoc, List.append_assoc,
    List.drop_left]

end Past

namespace World

variable {ω : Type} (S : System ω) {past : Past} {w w' : World ω}

/-- What can have happened until now, in any order: another thread did something, a lookup was asked for, a result was looked for,
or something else happened that leaves the lookups alone. -/
inductive Interleaved (S : System ω) : Past → World ω → Prop
  | created (os : ω) : Interleaved S {} { os }
  | acted {past : Past} {w : World ω} (h : Interleaved S past w) (d : Deed) :
      Interleaved S (past.arrive w (w.act S d)) (w.act S d)
  | asked {past : Past} {w : World ω} (h : Interleaved S past w) (l : Lookup) :
      Interleaved S ((past.arrive w (w.startLookup S l).2).ask l (w.startLookup S l).1) (w.startLookup S l).2
  | looked {past : Past} {w : World ω} (h : Interleaved S past w) :
      Interleaved S ((past.arrive w (w.letOthersAct S none)).collect (w.collect S).1) (w.collect S).2
  | aside {past : Past} {w w' : World ω} (h : Interleaved S past w) (hf : w'.inFlight = w.inFlight)
      (hr : w'.shared.running = w.shared.running) (hs : w'.shared.results = w.shared.results) : Interleaved S past w'

/-- Lookups that are accepted run until they have a result, and the results lie there until they are taken. There is never more
than one of either. -/
structure OneSlot (past : Past) (w : World ω) : Prop where
  outstanding_eq : w.shared.outstanding = w.inFlight.toNat
  arrived_eq : past.arrived = past.collected ++ w.shared.results
  finished : ∃ finished, past.accepted = finished ++ w.shared.running ∧
    List.Forall₂ (fun l r => ∃ found, r = l.resolve found) finished past.arrived

theorem act_cases (w : World ω) (d : Deed) :
    ((w.act S d).shared.running = w.shared.running ∧ (w.act S d).shared.results = w.shared.results) ∨
      ∃ l rest found, w.shared.running = l :: rest ∧ w.shared.results = [] ∧ (w.act S d).shared.running = rest ∧
        (w.act S d).shared.results = [l.resolve found] := by
  cases d with
  | requestStop => exact .inl ⟨rfl, rfl⟩
  | finishLookup found =>
    simp only [act]
    split
    · rename_i l rest hr hs
      exact .inr ⟨l, rest, found, hr, hs, rfl, rfl⟩
    · exact .inl ⟨rfl, rfl⟩
  | wake =>
    simp only [act]
    split
    · exact .inl ⟨rfl, rfl⟩
    · exact .inl ⟨rfl, rfl⟩

theorem act_results_prefix (w : World ω) (d : Deed) : w.shared.results <+: (w.act S d).shared.results := by
  obtain ⟨-, hs⟩ | ⟨_, _, _, -, hs, -⟩ := act_cases S w d
  · exact ⟨[], (List.append_nil _).trans hs.symm⟩
  · exact hs ▸ List.nil_prefix

namespace OneSlot

theorem created (os : ω) : OneSlot {} ({ os } : World ω) := ⟨rfl, rfl, [], rfl, .nil⟩

theorem aside (h : OneSlot past w) (hf : w'.inFlight = w.inFlight) (hr : w'.shared.running = w.shared.running)
    (hs : w'.shared.results = w.shared.results) : OneSlot past w' := by
  obtain ⟨ho, ha, hfin⟩ := h
  constructor
  · rw [Shared.outstanding, hr, hs, hf]
    exact ho
  · rw [hs]
    exact ha
  · rw [hr]
    exact hfin

theorem act (h : OneSlot past w) (d : Deed) : OneSlot (past.arrive w (w.act S d)) (w.act S d) := by
  obtain ⟨hr, hs⟩ | ⟨l, rest, found, hr, hs, hr', hs'⟩ := act_cases S w d
  · rw [past.arrive_of_eq hs]
    exact h.aside (act_inFlight S w d) hr hs
  · obtain ⟨ho, ha, finished, hfin, hres⟩ := h
    have harrived : (past.arrive w (w.act S d)).arrived = past.arrived ++ [l.resolve found] := by
      rw [Past.arrive, hs', hs]
      rfl
    constructor
    · rw [act_outstanding, act_inFlight]
      exact ho
    · rw [harrived, ha, hs, hs', List.append_nil]
      rfl
    · refine ⟨finished ++ [l], ?_, ?_⟩
      · rw [hr', List.append_assoc, List.singleton_append, ← hr]
        exact hfin
      · rw [harrived]
        exact List.rel_append hres (.cons ⟨found, rfl⟩ .nil)

theorem acts (h : OneSlot past w) (ds : List Deed) :
    OneSlot (past.arrive w (ds.foldl (World.act S) w)) (ds.foldl (World.act S) w) ∧
      w.shared.results <+: (ds.foldl (World.act S) w).shared.results := by
  induction ds generalizing past w with
  | nil =>
    rw [List.foldl_nil, past.arrive_of_eq rfl]
    exact ⟨h, List.prefix_rfl⟩
  | cons d ds ih =>
    obtain ⟨hlast, hgrown⟩ := ih (h.act S d)
    have hfirst := act_results_prefix S w d
    rw [Past.arrive_trans past hfirst hgrown] at hlast
    exact ⟨hlast, hfirst.trans hgrown⟩

theorem letOthersAct (h : OneSlot past w) (next : Option Call) :
    OneSlot (past.arrive w (w.letOthersAct S next)) (w.letOthersAct S next) := by
  have hos : OneSlot past { w with os := (S.meanwhile next w.os).2 } := h.aside rfl rfl rfl
  exact (hos.acts S (S.meanwhile next w.os).1).1

theorem idle (h : OneSlot past w) (hidle : w.inFlight = false) : w.shared.running = [] ∧ w.shared.results = [] := by
  have hnone := h.outstanding_eq
  rw [hidle, Bool.toNat_false, Shared.outstanding, Nat.add_eq_zero_iff] at hnone
  exact ⟨List.length_eq_zero_iff.mp hnone.1, List.length_eq_zero_iff.mp hnone.2⟩

theorem idle_call (h : OneSlot past w) (hidle : w.inFlight = false) (c : Call) :
    (w.call S c).2.inFlight = false ∧ (w.call S c).2.shared.running = [] ∧ (w.call S c).2.shared.results = [] := by
  have hstill := (letOthersAct_inFlight S w (some c)).trans hidle
  exact ⟨hstill, (h.letOthersAct S (some c)).idle hstill⟩

theorem results_of_running (h : OneSlot past w) {l : Lookup} (hl : l ∈ w.shared.running) :
    w.shared.running = [l] ∧ w.shared.results = [] := by
  have ho := h.outstanding_eq
  have hone := Bool.toNat_le w.inFlight
  obtain ⟨before, after, hr⟩ := List.append_of_mem hl
  rw [Shared.outstanding, hr, List.length_append, List.length_cons] at ho
  have hbefore : before = [] := List.length_eq_zero_iff.mp (by omega)
  have hafter : after = [] := List.length_eq_zero_iff.mp (by omega)
  rw [hr, hbefore, hafter]
  exact ⟨rfl, List.length_eq_zero_iff.mp (by omega)⟩

theorem accepted_length (h : OneSlot past w) : past.accepted.length = past.collected.length + w.inFlight.toNat := by
  obtain ⟨ho, ha, finished, hfin, hres⟩ := h
  have hlength := hres.length_eq
  rw [ha, List.length_append] at hlength
  rw [hfin, List.length_append, hlength, ← ho, Shared.outstanding]
  omega

end OneSlot

theorem collect_cases (w : World ω) :
    ((w.letOthersAct S none).shared.results = [] ∧ w.collect S = (none, w.letOthersAct S none)) ∨
      ∃ r rest, (w.letOthersAct S none).shared.results = r :: rest ∧
        w.collect S = (some r, { w.letOthersAct S none with
          shared := { (w.letOthersAct S none).shared with results := rest }, inFlight := false }.record S (.collected r)) := by
  cases hs : (w.letOthersAct S none).shared.results with
  | nil => exact .inl ⟨rfl, by simp only [collect, hs]⟩
  | cons r rest => exact .inr ⟨r, rest, rfl, by simp only [collect, hs]⟩

namespace OneSlot

theorem ask (h : OneSlot past w) (l : Lookup) :
    OneSlot ((past.arrive w (w.startLookup S l).2).ask l (w.startLookup S l).1) (w.startLookup S l).2 := by
  have hcalled : OneSlot (past.arrive w (w.call S .startThread).2) (w.call S .startThread).2 :=
    (h.letOthersAct S (some .startThread)).aside rfl rfl rfl
  obtain ⟨-, hs⟩ | ⟨hidle, ⟨code, -, hs⟩ | ⟨-, hs⟩⟩ := w.startLookup_cases S l
  · rw [hs, past.arrive_of_eq rfl]
    exact h
  · rw [hs]
    exact hcalled
  · rw [hs]
    obtain ⟨-, ha, finished, hfin, hres⟩ := hcalled
    obtain ⟨-, hrunning, hresults⟩ := h.idle_call S hidle .startThread
    constructor
    · rw [Shared.outstanding, hrunning, hresults]
      rfl
    · exact ha
    · refine ⟨finished, ?_, hres⟩
      rw [← List.append_assoc]
      exact congrArg (· ++ [l]) hfin

theorem collect (h : OneSlot past w) :
    OneSlot ((past.arrive w (w.letOthersAct S none)).collect (w.collect S).1) (w.collect S).2 := by
  have hlooked := h.letOthersAct S none
  obtain ⟨-, hc⟩ | ⟨r, rest, hs, hc⟩ := w.collect_cases S
  · rw [hc, Past.collect, Option.toList_none, List.append_nil]
    exact hlooked
  · rw [hc]
    obtain ⟨ho, ha, hfin⟩ := hlooked
    constructor
    · have hone := Bool.toNat_le (w.letOthersAct S none).inFlight
      rw [Shared.outstanding, hs, List.length_cons] at ho
      change (w.letOthersAct S none).shared.running.length + rest.length = 0
      omega
    · rw [hs, List.append_cons] at ha
      exact ha
    · exact hfin

end OneSlot

theorem startLookup_refused_iff (w : World ω) (l : Lookup) :
    (w.startLookup S l).1 = .error .inFlight ↔ w.inFlight = true := by
  obtain ⟨hf, hs⟩ | ⟨hidle, ⟨code, -, hs⟩ | ⟨-, hs⟩⟩ := w.startLookup_cases S l
  · simp [hs, hf]
  · simp [hs, hidle]
  · simp [hs, hidle]

theorem startLookup_of_inFlight {l : Lookup} (h : w.inFlight = true) : w.startLookup S l = (.error .inFlight, w) := by
  rw [startLookup, if_pos h]

namespace OneSlot

theorem startLookup_failed (h : OneSlot past w) {l : Lookup} {code : ErrorCode}
    (he : (w.startLookup S l).1 = .error (.submit code)) :
    (w.startLookup S l).2 = (w.call S .startThread).2 ∧ (w.startLookup S l).2.inFlight = w.inFlight ∧
      (w.startLookup S l).2.shared.running = w.shared.running ∧
      (w.startLookup S l).2.shared.results = w.shared.results := by
  obtain ⟨-, hs⟩ | ⟨hidle, ⟨code', -, hs⟩ | ⟨-, hs⟩⟩ := w.startLookup_cases S l
  · simp [hs] at he
  · rw [hs]
    obtain ⟨hrunning, hresults⟩ := h.idle hidle
    obtain ⟨hstill, hrunning', hresults'⟩ := h.idle_call S hidle .startThread
    exact ⟨rfl, hstill.trans hidle.symm, hrunning'.trans hrunning.symm, hresults'.trans hresults.symm⟩
  · simp [hs] at he

theorem collect_eq (h : OneSlot past w) :
    (w.collect S).1 = ((past.arrive w (w.letOthersAct S none)).arrived.drop past.collected.length).head? := by
  rw [(h.letOthersAct S none).arrived_eq]
  change _ = ((past.collected ++ _).drop _).head?
  rw [List.drop_left]
  obtain ⟨hs, hc⟩ | ⟨r, rest, hs, hc⟩ := w.collect_cases S
  · rw [hc, hs]
    rfl
  · rw [hc, hs]
    rfl

end OneSlot

variable {S}

theorem Interleaved.oneSlot (h : Interleaved S past w) : OneSlot past w := by
  induction h with
  | created os => exact .created os
  | acted _ d ih => exact ih.act S d
  | asked _ l ih => exact ih.ask S l
  | looked _ ih => exact ih.collect S
  | aside _ hf hr hs ih => exact ih.aside hf hr hs

theorem lookups_share_one_slot (h : Interleaved S past w) :
    -- a lookup is running, or its result is there, or neither: as many as the flag says
    w.shared.running.length + w.shared.results.length = w.inFlight.toNat ∧
    -- another is refused exactly when one was accepted whose result was not taken, and then nothing happens
    (∀ l, (w.startLookup S l).1 = .error .inFlight ↔ past.collected.length < past.accepted.length) ∧
    (∀ l, (w.startLookup S l).1 = .error .inFlight → (w.startLookup S l).2 = w) ∧
    -- where no thread can be started nothing comes of it but the attempt
    (∀ l code, (w.startLookup S l).1 = .error (.submit code) →
      (w.startLookup S l).2 = (w.call S .startThread).2 ∧ (w.startLookup S l).2.inFlight = w.inFlight ∧
      (w.startLookup S l).2.shared.running = w.shared.running ∧
      (w.startLookup S l).2.shared.results = w.shared.results) ∧
    -- the results are those of the lookups in their order, and are taken in it
    (∃ finished, past.accepted = finished ++ w.shared.running ∧
      List.Forall₂ (fun l r => ∃ found, r = l.resolve found) finished past.arrived) ∧
    past.arrived = past.collected ++ w.shared.results ∧
    -- what is looked for is found if it has come and was not taken
    (w.collect S).1 = ((past.arrive w (w.letOthersAct S none)).arrived.drop past.collected.length).head? ∧
    -- a thread that is done finds room for its result
    ∀ l ∈ w.shared.running, w.shared.results = [] ∧
      ∀ found, (w.act S (.finishLookup found)).shared.results = [l.resolve found] := by
  have hw := h.oneSlot
  refine ⟨hw.outstanding_eq, fun l => ?_, fun l he => ?_, fun l code => hw.startLookup_failed S, hw.finished, hw.arrived_eq,
    hw.collect_eq S, fun l hl => ?_⟩
  · rw [startLookup_refused_iff, hw.accepted_length]
    cases w.inFlight <;> simp
  · rw [startLookup_of_inFlight S ((startLookup_refused_iff S w l).mp he)]
  · obtain ⟨hr, hs⟩ := hw.results_of_running hl
    refine ⟨hs, fun found => ?_⟩
    simp only [act, record, hr, hs]

theorem lookups_share_one_slot_after_a_failure :
    let one : Lookup := ⟨"127.0.0.1", 1⟩
    let two : Lookup := ⟨"127.0.0.1", 2⟩
    ∃ past w, Interleaved Script.system past w ∧ past.accepted = [one, two] ∧ past.collected = [one.resolve none] ∧
      ∀ l, (w.startLookup Script.system l).1 = .error .inFlight := by
  intro one two
  have hcreated : Interleaved Script.system _ _ := .created { threadFailures := 1 }
  have hrefused := ((hcreated.asked two).asked one).asked two
  have htaken := (hrefused.looked.acted (.finishLookup none)).looked
  have hw := htaken.asked two
  refine ⟨_, _, hw, rfl, rfl, fun l => ?_⟩
  exact ((lookups_share_one_slot hw).2.1 l).mpr (by decide)

end World

end IrcLink
