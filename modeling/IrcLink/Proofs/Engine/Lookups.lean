import IrcLink.Proofs.Engine.Wakeups
import IrcLink.Proofs.Journal.Lookups

/-!
One lookup at a time. What the engine knows of a lookup and the phase of its connection are kept apart and changed by different
steps, but they agree wherever a run comes to: a result is awaited exactly while the connection is resolving. So a lookup is
never asked for while one is running, and a result never comes to a connection that does not wait for it.
-/

namespace IrcLink

theorem Event.looksUp_of_isWork {e : Event} (h : e.isWork = true) : e.looksUp = false := by
  unfold looksUp
  split
  all_goals first | rfl | simp [isWork, isErrand] at h

namespace Cycle

variable {ω : Type} {S : System ω} {now : Nat} {start : World ω} {c c' : Cycle ω}

structure Awaits (start : World ω) (c : Cycle ω) : Prop where
  inFlight_iff : c.world.inFlight = true ↔ c.connection.state = .resolving
  inTurn : start.InTurn c.world

namespace Awaits

theorem idle (hc : Awaits start c) (hs : c.connection.state ≠ .resolving) : c.world.inFlight = false :=
  Bool.eq_false_iff.mpr fun hf => hs (hc.inFlight_iff.mp hf)

theorem outstanding_eq (hc : Awaits start c) :
    c.world.shared.outstanding = if c.connection.state = .resolving then 1 else 0 := by
  rw [hc.inTurn.outstanding_eq]
  simp only [← hc.inFlight_iff]
  cases c.world.inFlight <;> rfl

theorem calls {P : Event → Prop} (hc : Awaits start c) (hw : c.world.Calls S P c'.world)
    (hP : ∀ e, P e → e.looksUp = false)
    (hs : c'.connection.state = .resolving ↔ c.connection.state = .resolving) : Awaits start c' := by
  refine ⟨?_, hc.inTurn.calls hw hP⟩
  rw [hw.inFlight_eq, hs]
  exact hc.inFlight_iff

end Awaits

theorem onLookup_not_resolving (now : Nat) (c : Cycle ω) (r : Resolution) :
    (c.onLookup now r).connection.state ≠ .resolving := by
  cases hphase : c.connection.phase with
  | resolving =>
    cases r with
    | error e => simp [onLookup, hphase, failLookup, Connection.pause, Connection.state]
    | ok addresses =>
      cases addresses <;> simp [onLookup, hphase, failLookup, setPhase, Connection.pause, Connection.state]
  | _ => simp [onLookup, hphase, Connection.state]

theorem onLookup_congr (now : Nat) (c c' : Cycle ω) (hc : c'.connection = c.connection)
    (ho : c'.outcome.lookupFailed = c.outcome.lookupFailed) (r : Resolution) :
    (c'.onLookup now r).connection = (c.onLookup now r).connection ∧
      (c'.onLookup now r).outcome.lookupFailed = (c.onLookup now r).outcome.lookupFailed := by
  unfold onLookup
  rw [hc]
  split
  · exact ⟨by rw [setPhase, setPhase, hc], ho⟩
  · exact ⟨by rw [failLookup, failLookup, hc], rfl⟩
  · exact ⟨hc, ho⟩

theorem Works.resolving_iff (h : Works S now c c') :
    c'.connection.state = .resolving ↔ c.connection.state = .resolving := by
  cases h with
  | aside => exact Iff.rfl
  | receives _ h => rw [Stage.state_eq_of_phase (receive_stays h).phase_eq]
  | transmits _ h => rw [Stage.state_eq_of_phase (transmit_stays h).phase_eq]
  | rearms => exact Iff.rfl
  | mayWrite => exact Iff.rfl
  | watches => exact Iff.rfl
  | loses hphase => simp [Connection.state, hphase, lose, Connection.pause]
  | connects hphase => simp [Connection.state, hphase, connect]
  | dials hstate =>
    have hn : c.connection.state ≠ .resolving := by
      obtain hstate | hstate := hstate <;> simp [hstate]
    refine iff_of_false ?_ hn
    obtain hended | ⟨_, _, _, _, hended, -⟩ := (nextAddress_tries S now hstate).ended <;> simp [Connection.state, hended]

theorem afterEvents_awaits (hc : Awaits start c) {retryAt : Nat} (hphase : c.connection.phase = .disconnected retryAt)
    (hdue : retryAt ≤ now) :
    let c' := c.afterEvents S now (World.startLookup S)
    Awaits start c' ∧ ∃ l refusal, c.world.Via S (·.isErrand = true) (World.startLookup S l c.world).2 ∧
      c'.world = (World.startLookup S l c.world).2.record S (.asked l refusal) ∧
      ∀ e, refusal = some e → (∃ code, e = .submit code) ∧ c'.connection.state = .disconnected := by
  have hidle : c.world.inFlight = false := hc.idle (by simp [Connection.state, hphase])
  obtain ⟨l, hl⟩ := afterEvents_due (S := S) hphase hdue
  have hv : c.world.Via S (·.isErrand = true) (World.startLookup S l c.world).2 :=
    World.startLookup_via S c.world l fun _ => rfl
  obtain ⟨world, h, hc'⟩ | ⟨e, world, h, hc'⟩ := hl
  · dsimp only
    rw [hc']
    obtain ⟨-, hf, ht⟩ | ⟨code, hrefused, -⟩ := hc.inTurn.startLookup_cases hidle h
    · exact ⟨⟨iff_of_true hf rfl, ht⟩, l, none, hv, by rw [h]; rfl, by simp⟩
    · simp at hrefused
  · dsimp only
    rw [hc']
    obtain ⟨haccepted, -⟩ | ⟨code, hrefused, hf, ht⟩ := hc.inTurn.startLookup_cases hidle h
    · simp at haccepted
    · obtain rfl := Except.error.inj hrefused
      have hawaited : world.inFlight = true ↔ (c.connection.pause now).state = .resolving := by
        simp [hf, Connection.pause, Connection.state]
      refine ⟨⟨hawaited, ht⟩, l, some (.submit code), hv, by rw [h]; rfl, ?_⟩
      intro e he
      exact ⟨⟨code, (Option.some.inj he).symm⟩, rfl⟩

theorem Happens.awaits (h : Happens S now c c') (hc : Awaits start c) : Awaits start c' := by
  cases h with
  | works h => exact hc.calls h.calls (fun _ => Event.looksUp_of_isWork) h.resolving_iff
  | looks =>
    have hw : c.world.Calls S (·.looksUp = false) (c.world.takeStop S).2 := World.Calls.refl.takeStop fun _ => rfl
    exact hc.calls hw (fun _ => id) Iff.rfl
  | @collects r world h =>
    obtain ⟨-, hf, ht⟩ := hc.inTurn.collect h
    have hn := onLookup_not_resolving now { c with world } r
    constructor
    · rw [onLookup_world]
      exact iff_of_false (by rw [hf]; nofun) hn
    · rw [onLookup_world]
      exact ht
  | asks hphase hdue => exact (afterEvents_awaits hc hphase hdue).1

end Cycle

namespace Engine

open IrcLink.Cycle

variable {ω : Type} {S : System ω} {now : Nat} {start : World ω} {c : Cycle ω}

theorem onCompletion_collects (now : Nat) (hc : Awaits start c) :
    ∃ rs : List Resolution,
      c.world.Does (.looked (c.world.takeStop S).1 :: rs.map .collected) (onCompletion S now c).world ∧
      (rs = [] ∨ ∃ r, rs = [r] ∧ c.connection.phase = .resolving ∧
        (onCompletion S now c).connection = (c.onLookup now r).connection ∧
        (onCompletion S now c).outcome.lookupFailed = (c.onLookup now r).outcome.lookupFailed) := by
  obtain ⟨rs, world, stopRequested, hd, ho, heq⟩ := onCompletion_eq S now c
  rw [heq]
  refine ⟨rs, hd, ?_⟩
  cases rs with
  | nil => exact .inl rfl
  | cons r more =>
    rw [hc.outstanding_eq, List.length_cons] at ho
    have hs : c.connection.state = .resolving := by
      by_contra hs
      rw [if_neg hs] at ho
      omega
    rw [if_pos hs] at ho
    obtain rfl : more = [] := List.length_eq_zero_iff.mp (by omega)
    obtain ⟨hconnection, hfailed⟩ : _ ∧ _ :=
      onLookup_congr now c { c with outcome := { c.outcome with stopRequested } } rfl rfl r
    exact .inr ⟨r, rfl, Connection.state_eq_resolving.mp hs, hconnection, hfailed⟩

theorem Step.awaits {p q : Point ω} (h : Step S p q) (hp : p.cycle.Awaits start) : q.cycle.Awaits start := by
  obtain ⟨now, c, hc, hconnection, hworld⟩ | ⟨now, timeout, c, waited, rfl, hwait, hconnection⟩ := h.cases
  · obtain ⟨hf, ht⟩ : c.Awaits start := hc.keeps (fun hh => hh.awaits) hp
    exact ⟨by rw [hconnection, hworld]; exact hf, by rw [hworld]; exact ht⟩
  · have hw : c.world.Calls S (·.looksUp = false) q.cycle.world := World.wait_calls hwait fun _ => rfl
    exact hp.calls hw (fun _ => id) (by rw [hconnection]; rfl)

theorem Visited.awaits {first : Engine ω} (hf : ∀ b, (Point.idle first b).cycle.Awaits start) {p : Point ω}
    (hp : Visited S first p) : p.cycle.Awaits start := by
  induction hp with
  | start => exact hf _
  | step _ h ih => exact h.awaits ih
  | use _ _ ih => exact ⟨ih.inFlight_iff, ih.inTurn⟩

theorem Step.lookups {p q : Point ω} (h : Step S p q) (hp : p.cycle.Awaits start) :
    ∃ rs es, p.cycle.world.Shows Event.collected? rs q.cycle.world ∧ p.cycle.world.Shows Event.refused? es q.cycle.world ∧
      (rs = [] ∨ ∃ now c e left r, p = .handling now c (e :: left) ∧ rs = [r] ∧ c.connection.phase = .resolving ∧
        q.cycle.connection = (c.onLookup now r).connection ∧
        q.cycle.outcome.lookupFailed = (c.onLookup now r).outcome.lookupFailed) ∧
      (es = [] ∨ ∃ code, es = [.submit code] ∧ q.cycle.connection.state = .disconnected) := by
  have nothing {w w' : World ω} (hw : World.Only (·.looksUp = false) w w') :
      w.Shows Event.collected? [] w' ∧ w.Shows Event.refused? [] w' :=
    ⟨.of_no_lookup Event.collected_of_looksUp hw, .of_no_lookup Event.refused_of_looksUp hw⟩
  cases h.kind with
  | @works _ _ now c h _ hworld =>
    obtain ⟨hc, hr⟩ := nothing (h.calls.only.mono fun _ => Event.looksUp_of_isWork)
    rw [hworld]
    exact ⟨[], [], hc, hr, .inl rfl, .inl rfl⟩
  | waits h _ =>
    obtain ⟨hc, hr⟩ := nothing (.of_does (World.wait_does S h) rfl)
    exact ⟨[], [], hc, hr, .inl rfl, .inl rfl⟩
  | completes now c e left =>
    let noted : Cycle ω := { c with world := c.world.record S (.handled e) }
    have hrecorded : c.world.Calls S (·.looksUp = false) noted.world := World.Calls.refl.record rfl rfl
    have hnoted : noted.Awaits start := Awaits.calls (c := c) hp hrecorded (fun _ => id) Iff.rfl
    obtain ⟨rs, hd, hrs⟩ := onCompletion_collects now hnoted
    obtain ⟨hc, hr⟩ := nothing hrecorded.only
    have hc := hc.trans (.of_does (fun _ he => Event.collected_of_looksUp _ (Event.looksUp_of_foreign he)) hd)
    have hr := hr.trans (.of_does (fun _ he => Event.refused_of_looksUp _ (Event.looksUp_of_foreign he)) hd)
    rw [List.filterMap_cons_none rfl, List.filterMap_map] at hc hr
    refine ⟨_, _, hc, hr, ?_, .inl ?_⟩
    · obtain rfl | ⟨r, rfl, hphase, hconnection, hfailed⟩ := hrs
      · exact .inl rfl
      · obtain ⟨hsame, hsameFailed⟩ : _ ∧ _ := onLookup_congr now c noted rfl rfl r
        exact .inr ⟨now, c, e, left, r, rfl, rfl, hphase, hconnection.trans hsame, hfailed.trans hsameFailed⟩
    · exact List.filterMap_eq_nil_iff.mpr fun _ _ => rfl
  | @asks now c retryAt q hphase hdue hconnection hworld =>
    have hc : c.Awaits start := hp
    obtain ⟨-, l, refusal, hv, hw, hrefused⟩ := afterEvents_awaits hc hphase hdue
    obtain ⟨hc, hr⟩ := nothing (hv.only.mono fun _ => Event.looksUp_of_isErrand)
    have hc := hc.trans (.record S _ (.asked l refusal))
    have hr := hr.trans (.record S _ (.asked l refusal))
    rw [← hw, ← hworld] at hc hr
    refine ⟨_, _, hc, hr, .inl rfl, ?_⟩
    cases refusal with
    | none => exact .inl rfl
    | some e =>
      obtain ⟨⟨code, rfl⟩, hs⟩ := hrefused e rfl
      exact .inr ⟨code, rfl, by rw [hconnection]; exact hs⟩

theorem create_calls {settings : LinkSettings} {now : Nat} {w : World ω} {first : Engine ω}
    (h : create S settings now w = .ok first) : w.Calls S (·.isErrand = true) first.world := by
  have hp : w.Calls S (·.isErrand = true) (w.call S (.createPoller settings.eventCapacity)).2 := .of_call nofun rfl
  unfold create at h
  split at h
  · exact absurd h nofun
  · rename_i world hc
    rw [hc] at hp
    have hw := hp.call (c := .createWaker completionToken) nofun rfl
    split at h
    · exact absurd h nofun
    · rename_i world' hc'
      rw [hc'] at hw
      obtain rfl := Except.ok.inj h
      exact hw

theorem create_awaits {settings : LinkSettings} {now : Nat} {w : World ω} {first : Engine ω}
    (h : create S settings now w = .ok first) (hidle : w.inFlight = false) (hnone : w.shared.outstanding = 0)
    (b : Buffers) : (Point.idle first b).cycle.Awaits first.world := by
  have hw := create_calls h
  have hf : first.world.inFlight = false := hw.inFlight_eq.trans hidle
  have hs : first.connection.state = .disconnected := by
    rw [create_connection h]
    rfl
  refine ⟨iff_of_false ?_ ?_, .refl hf (hw.outstanding_eq.trans hnone)⟩
  · change first.world.inFlight ≠ true
    rw [hf]
    nofun
  · change first.connection.state ≠ .resolving
    rw [hs]
    nofun

theorem asks_for_one_lookup_at_a_time {settings : LinkSettings} {now : Nat} {w : World ω} {first : Engine ω}
    (hfirst : create S settings now w = .ok first) (hidle : w.inFlight = false) (hnone : w.shared.outstanding = 0)
    {p : Point ω} (hp : Visited S first p) :
    (p.cycle.world.inFlight = true ↔ p.cycle.connection.state = .resolving) ∧
    p.cycle.world.shared.outstanding = (if p.cycle.connection.state = .resolving then 1 else 0) ∧
    (∃ seg : Journal, p.cycle.world.journal = first.world.journal ++ seg ∧
      seg.accepted.length = seg.collected.length + (if p.cycle.connection.state = .resolving then 1 else 0) ∧
      ∀ (before : Journal) (x : Entry) (after : Journal), seg = before ++ x :: after →
        before.collected.length ≤ before.accepted.length ∧ before.accepted.length ≤ before.collected.length + 1 ∧
        -- a lookup is asked for when the results of all the ones before it were taken, and is not refused for being one too many
        ∀ l refusal, x.event = .asked l refusal →
          before.accepted.length = before.collected.length ∧ refusal ≠ some .inFlight) ∧
    ∀ q, Step S p q → ∃ results refusals,
      p.cycle.world.Shows Event.collected? results q.cycle.world ∧ p.cycle.world.Shows Event.refused? refusals q.cycle.world ∧
      -- a result is taken only by a connection that waits for it, and is applied
      (results = [] ∨ ∃ now c e left r, p = .handling now c (e :: left) ∧ results = [r] ∧ c.connection.phase = .resolving ∧
        q.cycle.connection = (c.onLookup now r).connection ∧ q.cycle.connection.state ≠ .resolving ∧
        q.cycle.outcome.lookupFailed = (c.onLookup now r).outcome.lookupFailed) ∧
      -- and of a lookup that is refused nothing is left
      (refusals = [] ∨ ∃ code, refusals = [.submit code] ∧ q.cycle.connection.state = .disconnected ∧
        q.cycle.world.inFlight = false ∧ q.cycle.world.shared.outstanding = 0) := by
  have ha : p.cycle.Awaits first.world := hp.awaits (create_awaits hfirst hidle hnone)
  refine ⟨ha.inFlight_iff, ha.outstanding_eq, ?_, ?_⟩
  · obtain ⟨seg, hj, ht⟩ := ha.inTurn.turns
    refine ⟨seg, hj, ?_, ?_⟩
    · rw [ht.accepted_length, ← ha.inTurn.outstanding_eq, ha.outstanding_eq]
    · rintro before x after rfl
      obtain ⟨awaited, hb, hasks⟩ := ht.cut
      have hlength := hb.accepted_length
      refine ⟨by omega, ?_, ?_⟩
      · cases awaited <;> simp at hlength <;> omega
      · intro l refusal hx
        obtain ⟨rfl, hrefused⟩ := hasks l refusal hx
        refine ⟨hlength, fun hr => ?_⟩
        obtain ⟨code, hcode⟩ := hrefused _ hr
        exact absurd hcode nofun
  · intro q h
    have hq : q.cycle.Awaits first.world := h.awaits ha
    obtain ⟨rs, es, hc, hr, hrs, hes⟩ := h.lookups ha
    refine ⟨rs, es, hc, hr, ?_, ?_⟩
    · obtain hrs | ⟨now, c, e, left, r, rfl, hr, hphase, hconnection, hfailed⟩ := hrs
      · exact .inl hrs
      · refine .inr ⟨now, c, e, left, r, rfl, hr, hphase, hconnection, ?_, hfailed⟩
        rw [hconnection]
        exact onLookup_not_resolving now c r
    · obtain hes | ⟨code, hes, hs⟩ := hes
      · exact .inl hes
      · have hn : q.cycle.connection.state ≠ .resolving := by rw [hs]; nofun
        exact .inr ⟨code, hes, hs, hq.idle hn, by rw [hq.outstanding_eq, if_neg hn]⟩

/-- The first lookup finds no thread to run on, the second ends while the engine is asked to stop and finds nothing, and the third
is still running. -/
def threeLookups : Script where
  turns := [{ threadFails := true }, { result := .fails "EINTR" }, { lookup := some none, interrupt := true }, {}]

theorem asks_for_one_lookup_at_a_time_of_three :
    ∃ first p seg, create Script.system { host := "irc.example.net", port := 6667 } 0 { os := threeLookups } = .ok first ∧
      Visited Script.system first p ∧ p.cycle.connection.state = .resolving ∧ p.cycle.world.inFlight = true ∧
      p.cycle.world.shared.outstanding = 1 ∧ p.cycle.world.journal = first.world.journal ++ seg ∧
      seg.refused = [.submit "EAGAIN"] ∧ seg.accepted.length = 2 ∧ seg.collected.length = 1 := by
  have hS := Script.system_bounded
  obtain ⟨e, he⟩ : ∃ e, create Script.system { host := "irc.example.net", port := 6667 } 0 { os := threeLookups } = .ok e :=
    ⟨_, rfl⟩
  obtain ⟨b, hb⟩ : ∃ b, Buffers.create 4 = .ok b := ⟨_, rfl⟩
  have heval : (do
      let (_, e₁, b) ← e.cycle Script.system b 0 none
      let (_, e₂, b) ← e₁.cycle Script.system b 30000 none
      let (_, e₃, b) ← e₂.cycle Script.system b 30000 none
      let (_, e₄, _) ← e₃.cycle Script.system b 60000 none
      let seg : Journal := e₄.world.journal.drop e.world.journal.length
      return (e₄.connection.state, seg.refused, seg.accepted.length)) =
        .ok (.resolving, [.submit "EAGAIN"], 2) := by
    obtain rfl := Except.ok.inj he
    obtain rfl := Except.ok.inj hb
    decide +kernel
  obtain ⟨_, e₁, b₁, h₁⟩ := cycle_isOk hS e b 0 none
  obtain ⟨_, e₂, b₂, h₂⟩ := cycle_isOk hS e₁ b₁ 30000 none
  obtain ⟨_, e₃, b₃, h₃⟩ := cycle_isOk hS e₂ b₂ 30000 none
  obtain ⟨_, e₄, b₄, h₄⟩ := cycle_isOk hS e₃ b₃ 60000 none
  simp only [h₁, h₂, h₃, h₄, bind, Except.bind, pure, Except.pure, Except.ok.injEq, Prod.mk.injEq] at heval
  obtain ⟨hstate, hrefused, haccepted⟩ := heval
  obtain ⟨_, hread⟩ := (counted_of_create he hb).read
  have hp : Visited Script.system e (.idle e₄ b₄) :=
    ((((Visited.start hread.wellFormed).steps (cycle_steps h₁)).steps (cycle_steps h₂)).steps (cycle_steps h₃)).steps
      (cycle_steps h₄)
  have hs : (Point.idle e₄ b₄).cycle.connection.state = .resolving := hstate
  obtain ⟨hflight, hrunning, ⟨seg, hj, hcount, -⟩, -⟩ := asks_for_one_lookup_at_a_time he rfl rfl hp
  have hseg : e₄.world.journal.drop e.world.journal.length = seg := by
    have hj : e₄.world.journal = e.world.journal ++ seg := hj
    rw [hj, List.drop_left]
  rw [hseg] at hrefused haccepted
  rw [haccepted, if_pos hs] at hcount
  rw [if_pos hs] at hrunning
  exact ⟨e, _, seg, he, hp, hs, hflight.mpr hs, hrunning, hj, hrefused, haccepted, (Nat.succ.inj hcount).symm⟩

end Engine

end IrcLink
