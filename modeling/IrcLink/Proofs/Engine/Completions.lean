import IrcLink.Proofs.Engine.Lookups
import IrcLink.Proofs.Journal.Completions

/-!
Nothing that other threads leave is lost. They leave it first and wake the engine after, so the engine may come and find
it in between, on the strength of some other thread's wake; and one report of a wait may stand for many wakes. Still,
whoever has left something and woken the engine is owed a report, or the engine has looked since; and when it looks it
takes all there is.
-/

namespace IrcLink

namespace Event

variable {e : Event}

theorem isReport_of_isWork (h : e.isWork = true) : e.isReport = false := by
  unfold isReport
  split
  · simp [isWork, isErrand] at h
  · rfl

theorem isApart_of_isWork (h : e.isWork = true) : e.isApart = true := by
  unfold isApart
  split
  all_goals first | rfl | simp [isWork, isErrand] at h

theorem isTake_of_isWork (h : e.isWork = true) : e.isTake = false := isTake_of_isApart (isApart_of_isWork h)

end Event

namespace Cycle

variable {ω : Type} {S : System ω} {now : Nat} {start first : World ω} {c c' c'' : Cycle ω}

theorem Happens.tells (h : Happens S now c c') (ha : Awaits first c) (hc : start.Tells c.world) :
    start.Tells c'.world := by
  cases h with
  | works h => exact hc.calls h.calls fun _ => Event.isApart_of_isWork
  | looks => exact hc.takeStop
  | @collects r world h =>
    have hw : start.Tells (c.world.collect S).2 := hc.collect
    rw [h] at hw
    rwa [onLookup_world]
  | asks hphase hdue =>
    have hnone : c.world.shared.outstanding = 0 := by
      rw [ha.outstanding_eq, if_neg]
      simp [Connection.state, hphase]
    obtain ⟨l, ⟨world, h, hc'⟩ | ⟨e, world, h, hc'⟩⟩ := afterEvents_due (S := S) hphase hdue
    all_goals rw [hc']
    · exact hc.startLookup hnone h
    · exact hc.refuseLookup h

theorem Path.tells (h : Path S now c c') (ha : Awaits first c) (hc : start.Tells c.world) : start.Tells c'.world := by
  have hkept : Awaits first c' ∧ start.Tells c'.world :=
    h.keeps (I := fun c => Awaits first c ∧ start.Tells c.world) (fun hh hc => ⟨hh.awaits hc.1, hh.tells hc.1 hc.2⟩)
      ⟨ha, hc⟩
  exact hkept.2

def Reports (c c' : Cycle ω) : Prop :=
  ∃ es, c.world.Does es c'.world ∧
    (c'.outcome.stopRequested = true ↔ c.outcome.stopRequested = true ∨ .looked true ∈ es)

namespace Reports

theorem trans (h : Reports c c') (h' : Reports c' c'') : Reports c c'' := by
  obtain ⟨es, hd, ho⟩ := h
  obtain ⟨es', hd', ho'⟩ := h'
  refine ⟨es ++ es', hd.trans hd', ?_⟩
  rw [ho', ho, List.mem_append, or_assoc]

theorem of_only (h : World.Only (·.isLook = false) c.world c'.world)
    (ho : c'.outcome.stopRequested = c.outcome.stopRequested) : Reports c c' := by
  obtain ⟨es, hd, hes⟩ := h
  refine ⟨es, hd, ?_⟩
  rw [ho, or_iff_left]
  intro hl
  exact absurd (hes _ hl) nofun

end Reports

theorem onLookup_stopRequested (now : Nat) (c : Cycle ω) (r : Resolution) :
    (c.onLookup now r).outcome.stopRequested = c.outcome.stopRequested := by
  unfold onLookup
  split <;> rfl

theorem Works.reports (h : Works S now c c') : Reports c c' := by
  refine .of_only (h.calls.only.mono fun _ he => Event.isLook_of_isTake (Event.isTake_of_isWork he)) ?_
  cases h with
  | receives _ h => rw [(receive_stays h).outcome_eq]
  | transmits _ h => rw [(transmit_stays h).outcome_eq]
  | dials hstate =>
    have hu : c.connection.state ≠ .connected := by
      obtain hstate | hstate := hstate <;> simp [hstate]
    rw [(nextAddress_keepsOut S now hu).outcome_eq]
  | _ => rfl

theorem Happens.reports (h : Happens S now c c') : Reports c c' := by
  cases h with
  | works h => exact h.reports
  | looks =>
    refine ⟨_, World.takeStop_does S c.world, ?_⟩
    simp only [Bool.or_eq_true, List.mem_singleton, Event.looked.injEq]
    exact or_congr_right eq_comm
  | @collects r world h =>
    have hd := World.collect_does S c.world
    rw [h] at hd
    refine .of_only ?_ ?_
    · rw [onLookup_world]
      exact .of_does hd rfl
    · rw [onLookup_stopRequested]
  | asks hphase hdue =>
    refine .of_only ((afterEvents_asks hphase hdue).only ?_ fun _ _ => rfl) ?_
    · intro e he
      exact Event.isLook_of_isTake (Event.isTake_of_isWork (Event.isWork_of_isErrand he))
    · obtain ⟨l, ⟨_, -, hc'⟩ | ⟨_, _, -, hc'⟩⟩ := afterEvents_due (S := S) hphase hdue
      all_goals
        rw [hc']
        rfl

theorem Path.reports (h : Path S now c c') : Reports c c' := by
  induction h with
  | refl => exact .of_only (.refl _) rfl
  | tail _ h ih => exact ih.trans h.reports

end Cycle

namespace Engine

open IrcLink.Cycle

variable {ω : Type} {S : System ω} {now : Nat} {start first : World ω} {c c' : Cycle ω}

theorem waited_reports {waited : Call.Waited} {capacity : Nat} {timeout : Option Nat} {world : World ω}
    (h : c.world.wait S capacity timeout = (waited, world)) : Reports c { c with world } :=
  .of_only (.of_does (World.wait_does S h) rfl) rfl

theorem cycle_reports {e e' : Engine ω} {b b' : Buffers} {timeout : Option Nat} {r : Except WaitError Outcome}
    (h : e.cycle S b now timeout = .ok (r, e', b')) :
    ∃ es, e.world.Does es e'.world ∧ (∀ o, r = .ok o → (o.stopRequested = true ↔ .looked true ∈ es)) ∧
      ∀ error, r = .error error → ∀ x ∈ es, x.isTake = false := by
  obtain ⟨c, hc, h⟩ := Fault.bind_eq_ok.mp h
  obtain ⟨waited, world, hw, ha⟩ := attend_ok h
  have hr : Reports (Point.idle e b).cycle { c with world } :=
    (beforeWait_work hc).path.reports.trans (waited_reports hw)
  have finished {c' : Cycle ω} (hp : Path S now { c with world } c') :
      ∃ es, e.world.Does es (finish S now {} c').2.1.world ∧
        ∀ o, (finish S now {} c').1 = .ok o → (o.stopRequested = true ↔ .looked true ∈ es) := by
    obtain ⟨es, hd, ho⟩ := (hr.trans hp.reports).trans (afterEvents_path S now c').reports
    refine ⟨es, hd, ?_⟩
    intro o ho'
    obtain rfl := Except.ok.inj ho'
    simpa [Point.cycle] using ho
  cases ha with
  | failed code =>
    obtain ⟨es, hd, hes⟩ := (beforeWait_work hc).calls.only
    refine ⟨_, hd.trans (World.wait_does S hw), by simp, ?_⟩
    intro _ _ x hx
    obtain hx | hx := List.mem_append.mp hx
    · exact Event.isTake_of_isWork (hes x hx)
    · obtain rfl := List.mem_singleton.mp hx
      rfl
  | interrupted =>
    obtain ⟨es, hd, ho⟩ := finished .refl
    exact ⟨es, hd, ho, by simp⟩
  | events hc' =>
    obtain ⟨es, hd, ho⟩ := finished (dispatchAll_path hc')
    exact ⟨es, hd, ho, by simp⟩

def Point.left : Point ω → List Readiness
  | .handling _ _ left => left
  | _ => []

def Point.Told (p : Point ω) : Prop := ∃ e ∈ p.left, e.token = completionToken

def Point.Completes (p : Point ω) : Prop := ∃ now c e left, p = .handling now c (e :: left) ∧ e.token = completionToken

theorem collectAll_results (S : System ω) (now : Nat) (c : Cycle ω) :
    (collectAll S now c).world.shared.results = [] := by
  induction c using collectAll.induct S now with
  | case1 c world h =>
    rw [collectAll, h]
    simp only [World.collect] at h
    split at h
    · rename_i hresults
      obtain ⟨-, rfl⟩ := Prod.mk.inj h
      exact hresults
    · simp at h
  | case2 c r world h ih =>
    rw [collectAll, h]
    exact ih

theorem onCompletion_results (S : System ω) (now : Nat) (c : Cycle ω) :
    (onCompletion S now c).world.shared.results = [] := collectAll_results S now _

/-- What a step has to do with wakes: a report of one is left to be handled, and when it is handled the engine looks and
collects all. -/
structure Minds (p q : Point ω) (new : Journal) : Prop where
  journal_eq : q.cycle.world.journal = p.cycle.world.journal ++ new
  told : (∀ y ∈ new, y.event.isReport = false) ∨ q.Told
  looks : p.Told → q.Told ∨ ∃ y ∈ new, y.event.isLook = true
  takes : (∀ y ∈ new, y.event.isTake = false) ∨ p.Completes ∧ q.cycle.world.shared.results = []

theorem minds_of_only {p q : Point ω}
    (hw : World.Only (fun e => e.isReport = false ∧ e.isTake = false) p.cycle.world q.cycle.world)
    (htold : p.Told → q.Told) : ∃ new, Minds p q new := by
  obtain ⟨new, hj, hcalm⟩ := hw.entries fun _ he => ⟨Event.isReport_of_foreign he, Event.isTake_of_foreign he⟩
  exact ⟨new, hj, .inl fun y hy => (hcalm y hy).1, fun hp => .inl (htold hp), .inl fun y hy => (hcalm y hy).2⟩

theorem completion_minds (now : Nat) (c : Cycle ω) {e : Readiness} (htoken : e.token = completionToken)
    (left : List Readiness) :
    let c' := onCompletion S now { c with world := c.world.record S (.handled e) }
    ∃ new, Minds (.handling now c (e :: left)) (.handling now c' left) new := by
  let noted : Cycle ω := { c with world := c.world.record S (.handled e) }
  obtain ⟨rs, world, stopRequested, hd, -, heq⟩ := onCompletion_eq S now noted
  have hworld : (onCompletion S now noted).world = world := by rw [heq]
  have hhandled : c.world.Does [.handled e] noted.world := World.record_does S c.world rfl
  rw [← hworld] at hd
  obtain ⟨new, hj, hown⟩ := hhandled.trans hd
  refine ⟨new, hj, .inl (Journal.forall_of_own ?_ fun _ => Event.isReport_of_foreign), ?_, .inr ⟨?_, ?_⟩⟩
  · rw [hown]
    simp [Event.isReport]
  · rintro -
    have hlook : Event.looked (noted.world.takeStop S).1 ∈ new.own := by simp [hown]
    obtain ⟨y, hy, he⟩ := Journal.exists_of_mem_own hlook
    exact .inr ⟨y, hy, by rw [he]; rfl⟩
  · exact ⟨now, c, e, left, rfl, htoken⟩
  · exact onCompletion_results S now noted

theorem Step.minds {p q : Point ω} (h : Step S p q) : ∃ new, Minds p q new := by
  have work {now : Nat} {c c' : Cycle ω} (hw : Work S now c c') :
      World.Only (fun e => e.isReport = false ∧ e.isTake = false) c.world c'.world :=
    hw.calls.only.mono fun _ he => ⟨Event.isReport_of_isWork he, Event.isTake_of_isWork he⟩
  cases h with
  | begin timeout h => exact minds_of_only (work (beforeWait_work h)) nofun
  | failed h => exact minds_of_only (.of_does (World.wait_does S h) ⟨rfl, rfl⟩) nofun
  | interrupted h => exact minds_of_only (.of_does (World.wait_does S h) ⟨rfl, rfl⟩) nofun
  | @ready now _ c events world h =>
    by_cases htold : (Point.handling now { c with world } events).Told
    · have hw : World.Only (·.isTake = false) c.world world := .of_does (World.wait_does S h) rfl
      obtain ⟨new, hj, htake⟩ := hw.entries fun _ => Event.isTake_of_foreign
      exact ⟨new, hj, .inr htold, nofun, .inl htake⟩
    · have hsilent : ∀ e ∈ events, e.token ≠ completionToken := fun e he ht => htold ⟨e, he, ht⟩
      refine minds_of_only (.of_does (World.wait_does S h) ⟨?_, rfl⟩) nofun
      simpa [Event.isReport] using hsilent
  | @handle now c c' event left h =>
    obtain ⟨htoken, hw⟩ | ⟨htoken, rfl⟩ := dispatch_work h
    · refine minds_of_only (work hw) ?_
      rintro ⟨e, he, ht⟩
      obtain rfl | he := List.mem_cons.mp he
      · exact absurd ht htoken
      · exact ⟨e, he, ht⟩
    · exact completion_minds now c htoken left
  | finish now c =>
    refine minds_of_only ?_ nofun
    change World.Only _ c.world (c.afterEvents S now (World.startLookup S)).world
    obtain hw | ⟨retryAt, hphase, hdue⟩ := afterEvents_cases S now c
    · exact work hw.work
    · refine (afterEvents_asks hphase hdue).only ?_ fun _ _ => ⟨rfl, rfl⟩
      intro e he
      have he := Event.isWork_of_isErrand he
      exact ⟨Event.isReport_of_isWork he, Event.isTake_of_isWork he⟩

theorem Step.tells {p q : Point ω} (h : Step S p q) (ha : p.cycle.Awaits first) (hp : start.Tells p.cycle.world) :
    start.Tells q.cycle.world := by
  obtain ⟨now, c, hc, -, hworld⟩ | ⟨now, timeout, c, waited, rfl, hwait, -⟩ := h.cases
  · rw [hworld]
    exact hc.tells ha hp
  · have hw : c.world.Calls S (·.isApart = true) q.cycle.world := World.wait_calls hwait fun _ => rfl
    exact World.Tells.calls hp hw fun _ => id

/-- Every wake is still to be reported, was just reported, or the engine has looked since. And since it has looked, no
result lies ready that was there before. -/
structure Heeds (start : World ω) (p : Point ω) : Prop where
  woken : ∀ before x after, p.cycle.world.journal = start.journal ++ (before ++ x :: after) → x.event.isWake = true →
    (∀ y ∈ after, y.event.isReport = false) ∨ p.Told ∨ ∃ y ∈ after, y.event.isLook = true
  emptied : ∀ (before : Journal) x after r, p.cycle.world.journal = start.journal ++ (before ++ x :: after) →
    before.pending.left? x.event = some r → (∀ y ∈ after, y.event.collected? = none) →
    ∀ y ∈ after, y.event.isLook = false

theorem Step.heeds {p q : Point ω} (h : Step S p q) (hp : start.Tells p.cycle.world) (hq : start.Tells q.cycle.world)
    (hh : Heeds start p) : Heeds start q := by
  obtain ⟨seg, hseg, -⟩ := hp
  obtain ⟨new, m⟩ := h.minds
  have cut {before after : Journal} {x : Entry}
      (hj : q.cycle.world.journal = start.journal ++ (before ++ x :: after)) :
      (∃ mid, before = seg ++ mid ∧ new = mid ++ x :: after) ∨
        ∃ rest, seg = before ++ x :: rest ∧ after = rest ++ new := by
    rw [m.journal_eq, hseg, List.append_assoc] at hj
    exact Journal.split_append (List.append_cancel_left hj)
  constructor
  · intro before x after hj hx
    obtain ⟨mid, rfl, rfl⟩ | ⟨rest, rfl, rfl⟩ := cut hj
    · -- a wake of this step
      obtain hsilent | htold := m.told
      · exact .inl fun y hy => hsilent y (by simp [hy])
      · exact .inr (.inl htold)
    · obtain hsilent | htold | ⟨y, hy, hlook⟩ := hh.woken before x rest hseg hx
      · obtain hsilent' | htold := m.told
        · left
          intro y hy
          obtain hy | hy := List.mem_append.mp hy
          · exact hsilent y hy
          · exact hsilent' y hy
        · exact .inr (.inl htold)
      · -- a report that was left before is still left, or it was handled
        obtain htold | ⟨y, hy, hlook⟩ := m.looks htold
        · exact .inr (.inl htold)
        · exact .inr (.inr ⟨y, List.mem_append_right _ hy, hlook⟩)
      · exact .inr (.inr ⟨y, List.mem_append_left _ hy, hlook⟩)
  · intro before x after r hj hleft hafter
    obtain htake | ⟨-, hempty⟩ := m.takes
    · have hblind : ∀ y ∈ new, y.event.isLook = false := fun y hy => Event.isLook_of_isTake (htake y hy)
      obtain ⟨mid, rfl, rfl⟩ | ⟨rest, rfl, rfl⟩ := cut hj
      · exact fun y hy => hblind y (by simp [hy])
      · have hrest := hh.emptied before x rest r hseg hleft fun y hy => hafter y (List.mem_append_left _ hy)
        intro y hy
        obtain hy | hy := List.mem_append.mp hy
        · exact hrest y hy
        · exact hblind y hy
    · -- all was collected, so nothing that was left before can still lie ready
      have hready := hq.ready hj hleft hafter
      simp [hempty] at hready

theorem Visited.heeds {first : Engine ω} (ha : ∀ b, (Point.idle first b).cycle.Awaits first.world)
    (ht : start.Tells first.world) (hh : ∀ b, Heeds start (.idle first b)) {p : Point ω} (hp : Visited S first p) :
    p.cycle.Awaits first.world ∧ start.Tells p.cycle.world ∧ Heeds start p := by
  induction hp with
  | @start b _ => exact ⟨ha b, ht, hh b⟩
  | step _ h ih =>
    obtain ⟨hp, htells, hheeds⟩ := ih
    have htells' := h.tells hp htells
    exact ⟨h.awaits hp, htells', h.heeds htells htells' hheeds⟩
  | use _ _ ih =>
    obtain ⟨hp, htells, hheeds⟩ := ih
    exact ⟨⟨hp.inFlight_iff, hp.inTurn⟩, htells, ⟨hheeds.woken, hheeds.emptied⟩⟩

theorem Heeds.due {p : Point ω} {before after : Journal} {x : Entry} (hh : Heeds start p)
    (hj : p.cycle.world.journal = start.journal ++ (before ++ x :: after))
    (hleft : x.event.isStop = true ∧ (∀ y ∈ after, y.event.isLook = false) ∨
      (∃ r, before.pending.left? x.event = some r) ∧ ∀ y ∈ after, y.event.collected? = none)
    (hwoken : ∃ y ∈ after, y.event.isWake = true) :
    p.Told ∨ (before ++ x :: after).Since Event.isWake Event.isReport := by
  have hblind : ∀ y ∈ after, y.event.isLook = false := by
    obtain ⟨-, hblind⟩ | ⟨⟨r, hr⟩, hafter⟩ := hleft
    · exact hblind
    · exact hh.emptied before x after r hj hr hafter
  obtain ⟨y, hy, hwake⟩ := hwoken
  obtain ⟨mid, last, rfl⟩ := List.append_of_mem hy
  obtain hsilent | htold | ⟨z, hz, hlook⟩ := hh.woken (before ++ x :: mid) y last (by simpa using hj) hwake
  · exact .inr ⟨before ++ x :: mid, y, last, by simp, hwake, hsilent⟩
  · exact .inl htold
  · have hnot := hblind z (by simp [hz])
    simp [hlook] at hnot

theorem dispatch_handsOver (now : Nat) {e : Readiness} (htoken : e.token = completionToken) (ha : c.Awaits first)
    (ht : start.Tells c.world) :
    ∃ (c' : Cycle ω) (stop : Bool) (results : List Resolution), dispatch S now c e = .ok c' ∧
      c.world.Does (.handled e :: .looked stop :: results.map .collected) c'.world ∧
      (c.world.shared.stop = true → stop = true) ∧
      (c'.outcome.stopRequested = true ↔ c.outcome.stopRequested = true ∨ stop = true) ∧
      c.world.shared.results <+: results ∧ c'.world.shared.results = [] ∧
      (results = [] ∨ ∃ r, results = [r] ∧ c.connection.phase = .resolving ∧
        c'.connection = (c.onLookup now r).connection ∧
        c'.outcome.lookupFailed = (c.onLookup now r).outcome.lookupFailed) := by
  let noted : Cycle ω := { c with world := c.world.record S (.handled e) }
  have hok : dispatch S now c e = .ok (onCompletion S now noted) := by
    rw [dispatch, if_neg (by rw [htoken]; nofun), if_pos htoken]
  have hhandled : c.world.Calls S (·.looksUp = false) noted.world := World.Calls.refl.record rfl rfl
  have hnoted : noted.Awaits first := ha.calls hhandled (fun _ => id) Iff.rfl
  obtain ⟨results, hd, hresults⟩ := onCompletion_collects now hnoted
  have hdoes := (World.record_does S c.world (e := .handled e) rfl).trans hd
  have hempty := onCompletion_results S now noted
  refine ⟨_, _, results, hok, hdoes, ?_, ?_, ?_, hempty, ?_⟩
  · intro hstop
    exact World.takeStop_of_stop (w := noted.world) hstop
  · obtain ⟨es, hd', ho⟩ := (dispatch_path hok).reports
    rw [ho, hd'.unique hdoes]
    simp only [List.singleton_append, List.mem_cons, List.mem_map, Event.looked.injEq, reduceCtorEq, and_false,
      exists_false, or_false, false_or]
    exact or_congr_right eq_comm
  · obtain ⟨later, hlater⟩ := ht.results_eq ((dispatch_path hok).tells ha ht) hdoes
    rw [hempty, List.append_nil, List.singleton_append, List.filterMap_cons_none rfl, List.filterMap_cons_none rfl,
      List.filterMap_map] at hlater
    exact ⟨later, hlater.trans List.filterMap_some⟩
  · obtain hnone | ⟨r, hr, hphase, hconnection, hfailed⟩ := hresults
    · exact .inl hnone
    · obtain ⟨hsame, hsameFailed⟩ : _ ∧ _ := onLookup_congr now c noted rfl rfl r
      exact .inr ⟨r, hr, hphase, hconnection.trans hsame, hfailed.trans hsameFailed⟩

theorem create_heeds {settings : LinkSettings} {w : World ω} {e : Engine ω} (h : create S settings now w = .ok e)
    (b : Buffers) : Heeds w (.idle e b) := by
  have hwork := (create_calls h).only.mono fun _ he => Event.isWork_of_isErrand he
  have hcalm := hwork.mono fun _ he => And.intro (Event.isReport_of_isWork he) (Event.isTake_of_isWork he)
  obtain ⟨seg, hj, hseg⟩ := hcalm.entries fun _ he => ⟨Event.isReport_of_foreign he, Event.isTake_of_foreign he⟩
  have cut {before after : Journal} {x : Entry}
      (hx : (Point.idle e b).cycle.world.journal = w.journal ++ (before ++ x :: after)) : seg = before ++ x :: after :=
    List.append_cancel_left (hj.symm.trans hx)
  constructor
  · intro before x after hx _
    obtain rfl := cut hx
    exact .inl fun y hy => (hseg y (by simp [hy])).1
  · intro before x after _ hx _ _
    obtain rfl := cut hx
    exact fun y hy => Event.isLook_of_isTake (hseg y (by simp [hy])).2

theorem nothing_left_is_lost {settings : LinkSettings} {now : Nat} {w : World ω} {first : Engine ω}
    (hfirst : create S settings now w = .ok first) (hidle : w.inFlight = false) (hshared : w.shared = {})
    {p : Point ω} (hp : Visited S first p) :
    (∃ seg : Journal, p.cycle.world.journal = w.journal ++ seg ∧
      -- what is there to take is what was left and not taken
      (p.cycle.world.shared.stop = true ↔ seg.Since Event.isStop Event.isLook) ∧
      seg.found = seg.collected ++ p.cycle.world.shared.results ∧
      ∀ (before : Journal) (x : Entry) (after : Journal), seg = before ++ x :: after →
        -- a look sees a request if any were made since the last look, whatever else the engine was woken for
        (∀ stop, x.event = .looked stop → (stop = true ↔ before.Since Event.isStop Event.isLook)) ∧
        -- a result is collected that was found and not collected before
        (∀ r, x.event = .collected r → before.found = before.collected ++ [r]) ∧
        -- after a wake that was reported the engine looks
        (x.event.isWake = true →
          (∀ y ∈ after, y.event.isReport = false) ∨ p.Told ∨ ∃ y ∈ after, y.event.isLook = true) ∧
        -- and as long as something that was left before a wake is not taken, a report is due
        (x.event.isStop = true ∧ (∀ y ∈ after, y.event.isLook = false) ∨
            (∃ r, before.pending.left? x.event = some r) ∧ (∀ y ∈ after, y.event.collected? = none) →
          (∃ y ∈ after, y.event.isWake = true) → p.Told ∨ seg.Since Event.isWake Event.isReport)) ∧
    -- when a report is handled, all that is there is taken
    (∀ now c e left, p = .handling now c (e :: left) → e.token = completionToken →
      ∃ (c' : Cycle ω) (stop : Bool) (results : List Resolution), dispatch S now c e = .ok c' ∧
        c.world.Does (.handled e :: .looked stop :: results.map .collected) c'.world ∧
        (c.world.shared.stop = true → stop = true) ∧
        (c'.outcome.stopRequested = true ↔ c.outcome.stopRequested = true ∨ stop = true) ∧
        c.world.shared.results <+: results ∧ c'.world.shared.results = [] ∧
        (results = [] ∨ ∃ r, results = [r] ∧ c.connection.phase = .resolving ∧
          c'.connection = (c.onLookup now r).connection ∧
          c'.outcome.lookupFailed = (c.onLookup now r).outcome.lookupFailed)) ∧
    -- no other step takes anything
    (∀ q, Step S p q → p.Completes ∨
      ∃ new, q.cycle.world.journal = p.cycle.world.journal ++ new ∧ ∀ y ∈ new, y.event.isTake = false) ∧
    -- and a cycle tells its caller whether it has seen a request; one whose wait fails has taken nothing
    ∀ e b now timeout r e' b', p = .idle e b → e.cycle S b now timeout = .ok (r, e', b') →
      ∃ es, e.world.Does es e'.world ∧ (∀ o, r = .ok o → (o.stopRequested = true ↔ .looked true ∈ es)) ∧
        ∀ error, r = .error error → ∀ x ∈ es, x.isTake = false := by
  have hnone : w.shared.outstanding = 0 := by
    rw [hshared]
    rfl
  have hstart : w.Tells first.world :=
    (World.Tells.refl hshared).calls (create_calls hfirst)
      fun _ he => Event.isApart_of_isWork (Event.isWork_of_isErrand he)
  obtain ⟨ha, ht, hh⟩ := hp.heeds (create_awaits hfirst hidle hnone) hstart (create_heeds hfirst)
  refine ⟨?_, ?_, ?_, ?_⟩
  · obtain ⟨seg, hj, ho, hs⟩ := id ht
    refine ⟨seg, hj, ?_, ?_, ?_⟩
    · rw [hs.stop_eq, Journal.pending_stop_iff]
    · rw [ho.found_eq, hs.results_eq]
    · rintro before x after rfl
      have hallows := ho before x after rfl
      refine ⟨?_, ?_, hh.woken before x after hj, hh.due hj⟩
      · intro stop hx
        rw [hx] at hallows
        obtain rfl : stop = before.pending.stop := hallows
        exact Journal.pending_stop_iff before
      · intro r hx
        rw [hx] at hallows
        have hready : before.pending.desk = .ready r := hallows
        rw [Journal.Orderly.found_eq ho.of_append, hready]
        rfl
  · rintro now c e left rfl htoken
    exact dispatch_handsOver now htoken ha ht
  · intro q h
    obtain ⟨new, m⟩ := h.minds
    obtain htake | ⟨hcompletes, -⟩ := m.takes
    · exact .inr ⟨new, m.journal_eq, htake⟩
    · exact .inl hcompletes
  · intro e b now timeout r e' b' _ h
    exact cycle_reports h

def interruptedWait : Script where
  turns := [{}, { lookup := some none, interrupt := true, result := .fails "EINTR" }, {}]

theorem nothing_left_is_lost_of_interruptedWait :
    ∃ first e b seg e' b' o es,
      create Script.system { host := "irc.example.net", port := 6667 } 0 { os := interruptedWait } = .ok first ∧
      Visited Script.system first (.idle e b) ∧ e.world.journal = seg ∧ e.world.shared.stop = true ∧
      e.world.shared.results.length = 1 ∧ seg.Since Event.isWake Event.isReport ∧
      e.cycle Script.system b 0 none = .ok (.ok o, e', b') ∧ o.stopRequested = true ∧ o.lookupFailed = true ∧
      e.world.Does es e'.world ∧ .looked true ∈ es := by
  have hS := Script.system_bounded
  obtain ⟨e, he⟩ : ∃ e,
      create Script.system { host := "irc.example.net", port := 6667 } 0 { os := interruptedWait } = .ok e := ⟨_, rfl⟩
  obtain ⟨b, hb⟩ : ∃ b, Buffers.create 4 = .ok b := ⟨_, rfl⟩
  have heval : (do
      let (_, e₁, b) ← e.cycle Script.system b 0 none
      let (_, e₂, b) ← e₁.cycle Script.system b 0 none
      let (r, _, _) ← e₂.cycle Script.system b 0 none
      let seg : Journal := e₂.world.journal
      let after : Journal := seg.drop 9
      return (seg[8]?.map fun (x : Entry) => x.event.isStop, after.all fun (y : Entry) => !y.event.isLook,
        after.any (·.event.isWake), e₂.world.shared.results.length, r.toOption)) =
        .ok (some true, true, true, 1, some { stopRequested := true, lookupFailed := true }) := by
    obtain rfl := Except.ok.inj he
    obtain rfl := Except.ok.inj hb
    decide +kernel
  obtain ⟨_, e₁, b₁, h₁⟩ := cycle_isOk hS e b 0 none
  obtain ⟨_, e₂, b₂, h₂⟩ := cycle_isOk hS e₁ b₁ 0 none
  obtain ⟨r, e₃, b₃, h₃⟩ := cycle_isOk hS e₂ b₂ 0 none
  simp only [h₁, h₂, h₃, bind, Except.bind, pure, Except.pure, Except.ok.injEq, Prod.mk.injEq,
    Option.map_eq_some_iff] at heval
  obtain ⟨⟨x, hx, hstopped⟩, hblind, hwake, hresults, hr⟩ := heval
  obtain ⟨_, hread⟩ := (counted_of_create he hb).read
  have hp : Visited Script.system e (.idle e₂ b₂) :=
    ((Visited.start hread.wellFormed).steps (cycle_steps h₁)).steps (cycle_steps h₂)
  obtain ⟨⟨seg, hj, hflag, -, hcut⟩, -, -, hcycle⟩ := nothing_left_is_lost he rfl rfl hp
  have hj : e₂.world.journal = seg := hj
  rw [hj] at hx hblind hwake
  obtain ⟨hlt, rfl⟩ := List.getElem?_eq_some_iff.mp hx
  have hblind : ∀ y ∈ seg.drop 9, y.event.isLook = false := by simpa using hblind
  have hseg : seg = seg.take 8 ++ seg[8] :: seg.drop 9 := by simp
  obtain ⟨-, -, -, hdue⟩ := hcut (seg.take 8) seg[8] (seg.drop 9) hseg
  have hstop : e₂.world.shared.stop = true := hflag.mpr ⟨_, _, _, hseg, hstopped, hblind⟩
  cases r with
  | error error => simp [Except.toOption] at hr
  | ok o =>
    obtain rfl := Option.some.inj hr
    obtain ⟨es, hd, ho, -⟩ := hcycle _ _ _ _ _ _ _ rfl h₃
    refine ⟨e, e₂, b₂, seg, e₃, b₃, _, es, he, hp, hj, hstop, hresults, ?_, h₃, rfl, rfl, hd, (ho _ rfl).mp rfl⟩
    obtain ⟨_, htold, -⟩ | hdue := hdue (.inl ⟨hstopped, hblind⟩) (by simpa using hwake)
    · simp [Point.left] at htold
    · exact hdue

end Engine

end IrcLink
