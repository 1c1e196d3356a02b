import IrcLink.Engine

/-!
What the parts of a cycle can do, said once: each of these takes a part that has returned back to the shorter steps it
was made of.
-/

namespace IrcLink

def Flow.received (flow : Flow) : Stop → Flow
  | .ring => { flow with readFull := true }
  | .wouldBlock => { flow with readFull := false }
  | .lost => flow

def Flow.transmitted (flow : Flow) : Stop → Flow
  | .ring => { flow with writeFull := false }
  | .wouldBlock => { flow with writeFull := true }
  | .lost => flow

theorem Connection.state_eq_connected {c : Connection} : c.state = .connected ↔ ∃ s peer, c.phase = .connected s peer := by
  unfold state
  split
  any_goals simp_all

theorem Connection.state_eq_disconnected {c : Connection} :
    c.state = .disconnected ↔ ∃ retryAt, c.phase = .disconnected retryAt := by
  unfold state
  split
  any_goals simp_all

theorem Connection.state_eq_resolving {c : Connection} : c.state = .resolving ↔ c.phase = .resolving := by
  unfold state
  split
  any_goals simp_all

theorem Connection.state_eq_connecting {c : Connection} :
    c.state = .connecting ↔ ∃ s a rest deadline, c.phase = .connecting s a rest deadline := by
  unfold state
  split
  any_goals simp_all

theorem Connection.state_ne_connected {c : Connection} (h : ∀ s peer, c.phase ≠ .connected s peer) :
    c.state ≠ .connected := by
  intro hs
  obtain ⟨s, peer, hphase⟩ := Connection.state_eq_connected.mp hs
  exact h s peer hphase

theorem Connection.state_ne_connecting {c : Connection}
    (h : ∀ s a rest deadline, c.phase ≠ .connecting s a rest deadline) : c.state ≠ .connecting := by
  intro hs
  obtain ⟨s, a, rest, deadline, hphase⟩ := Connection.state_eq_connecting.mp hs
  exact h s a rest deadline hphase

namespace Cycle

variable {ω : Type} {S : System ω} {now : Nat} {c c' : Cycle ω} {s : Socket} {peer : SocketAddress}

theorem receive_ok {alive : Bool} (h : c.receive S s = .ok (alive, c')) :
    ∃ t, Transfer.receive S s c.buffers.read c.world = .ok t ∧ alive = decide (t.stop ≠ .lost) ∧
      c' = ⟨{ c.connection with
          flow := c.connection.flow.received t.stop
          stats := { c.connection.stats with bytesRead := c.connection.stats.bytesRead + t.moved } },
        { c.buffers with read := t.ring }, t.world.record S (.receiveEnded t.stop), c.outcome⟩ := by
  obtain ⟨t, ht, h⟩ := Fault.bind_eq_ok.mp h
  obtain ⟨rfl, rfl⟩ := Prod.mk.inj (Except.ok.inj h)
  refine ⟨t, ht, rfl, ?_⟩
  cases hstop : t.stop <;> simp [setFlow, countStats, Flow.received]

theorem transmit_ok {alive : Bool} (h : c.transmit S s = .ok (alive, c')) :
    ∃ t, Transfer.transmit S s c.buffers.write c.world = .ok t ∧ alive = decide (t.stop ≠ .lost) ∧
      c' = ⟨{ c.connection with
          flow := c.connection.flow.transmitted t.stop
          stats := { c.connection.stats with bytesWritten := c.connection.stats.bytesWritten + t.moved } },
        { c.buffers with write := t.ring }, t.world, c.outcome⟩ := by
  obtain ⟨t, ht, h⟩ := Fault.bind_eq_ok.mp h
  obtain ⟨rfl, rfl⟩ := Prod.mk.inj (Except.ok.inj h)
  refine ⟨t, ht, rfl, ?_⟩
  cases hstop : t.stop <;> simp [setFlow, countStats, Flow.transmitted]

theorem beforeWait_unlinked (hu : c.connection.state ≠ .connected) (h : c.beforeWait S now = .ok c') : c' = c := by
  unfold beforeWait at h
  split at h
  · rename_i s peer hphase
    exact absurd (Connection.state_eq_connected.mpr ⟨s, peer, hphase⟩) hu
  · exact (Except.ok.inj h).symm

theorem beforeWait_connected (hphase : c.connection.phase = .connected s peer) (h : c.beforeWait S now = .ok c') :
    ∃ alive anew c₁, c.receiveIfRoom S s = .ok (alive, anew, c₁) ∧
      (alive = false ∧ c' = c₁.lose S now s ∨ alive = true ∧ c₁.sendAndWatch S now s anew = .ok c') := by
  unfold beforeWait at h
  rw [hphase] at h
  obtain ⟨⟨alive, anew, c₁⟩, hr, h⟩ := Fault.bind_eq_ok.mp h
  refine ⟨alive, anew, c₁, hr, ?_⟩
  cases alive with
  | false => exact .inl ⟨rfl, (Except.ok.inj h).symm⟩
  | true => exact .inr ⟨rfl, h⟩

theorem sendAndWatch_ok {anew : Bool} (h : c.sendAndWatch S now s anew = .ok c') :
    ∃ alive c₁, c.transmitIfQueued S s = .ok (alive, c₁) ∧
      (alive = false ∧ c' = c₁.lose S now s ∨
        alive = true ∧ c' = if (c₁.watch S s anew).1 then (c₁.watch S s anew).2
          else (c₁.watch S s anew).2.lose S now s) := by
  obtain ⟨⟨alive, c₁⟩, ht, h⟩ := Fault.bind_eq_ok.mp h
  refine ⟨alive, c₁, ht, ?_⟩
  cases alive with
  | false => exact .inl ⟨rfl, (Except.ok.inj h).symm⟩
  | true => exact .inr ⟨rfl, (Except.ok.inj h).symm⟩

theorem onConnected_ok {e : Readiness} (h : c.onConnected S now e s = .ok c') :
    ∃ alive c₁, c.receiveReady S e s = .ok (alive, c₁) ∧
      (alive = false ∧ c' = c₁.lose S now s ∨ alive = true ∧ c₁.hangUpOrSend S now e s = .ok c') := by
  obtain ⟨⟨alive, c₁⟩, hr, h⟩ := Fault.bind_eq_ok.mp h
  refine ⟨alive, c₁, hr, ?_⟩
  cases alive with
  | false => exact .inl ⟨rfl, (Except.ok.inj h).symm⟩
  | true => exact .inr ⟨rfl, h⟩

theorem hangUpOrSend_ok {e : Readiness} (h : c.hangUpOrSend S now e s = .ok c') :
    (e.error || e.closed) = true ∧ c' = { c with world := (c.world.call S (.takeError s)).2 }.lose S now s ∨
      (e.error || e.closed) = false ∧ e.writable = false ∧ c' = c ∨
      (e.error || e.closed) = false ∧ e.writable = true ∧
        ∃ alive c₁, c.transmitReady S s = .ok (alive, c₁) ∧ c' = if alive then c₁ else c₁.lose S now s := by
  unfold hangUpOrSend at h
  split at h
  · rename_i hhup
    exact .inl ⟨hhup, (Except.ok.inj h).symm⟩
  · rename_i hhup
    have hhup := Bool.eq_false_iff.mpr hhup
    split at h
    · rename_i hw
      obtain ⟨⟨alive, c₁⟩, ht, h⟩ := Fault.map_eq_ok.mp h
      exact .inr (.inr ⟨hhup, hw, alive, c₁, ht, h.symm⟩)
    · rename_i hw
      exact .inr (.inl ⟨hhup, Bool.eq_false_iff.mpr hw, (Except.ok.inj h).symm⟩)

end Cycle

namespace Engine

variable {ω : Type} {S : System ω} {now : Nat} {c : Cycle ω}

/-- The list of the poller is empty ahead of a wait and after it, whatever an earlier one has left in it. -/
theorem attend_eq (timeout : Option Nat) (poller : Poller) (c : Cycle ω) : attend S now timeout poller c =
    match c.world.wait S c.connection.settings.eventCapacity (waitTimeout c.connection now timeout) with
    | (.failed code, world) => .ok (.error ⟨code⟩, ⟨c.connection, world, {}⟩, c.buffers)
    | (.interrupted, world) => .ok (finish S now {} { c with world })
    | (.events ready, world) => (ready.foldlM (dispatch S now) { c with world }).map (finish S now {}) := by
  unfold attend Poller.wait
  cases c.world.wait S c.connection.settings.eventCapacity (waitTimeout c.connection now timeout) with
  | mk waited world => cases waited <;> rfl

inductive Attended (S : System ω) (now : Nat) (c : Cycle ω) :
    Call.Waited → Except WaitError Outcome × Engine ω × Buffers → Prop
  | failed (code : ErrorCode) :
      Attended S now c (.failed code) (.error ⟨code⟩, ⟨c.connection, c.world, {}⟩, c.buffers)
  | interrupted : Attended S now c .interrupted (finish S now {} c)
  | events {ready : List Readiness} {c' : Cycle ω} (h : ready.foldlM (dispatch S now) c = .ok c') :
      Attended S now c (.events ready) (finish S now {} c')

theorem attend_ok {timeout : Option Nat} {poller : Poller} {r : Except WaitError Outcome × Engine ω × Buffers}
    (h : attend S now timeout poller c = .ok r) :
    ∃ waited world, c.world.wait S c.connection.settings.eventCapacity (waitTimeout c.connection now timeout) =
      (waited, world) ∧ Attended S now { c with world } waited r := by
  rw [attend_eq] at h
  cases hw : c.world.wait S c.connection.settings.eventCapacity (waitTimeout c.connection now timeout) with
  | mk waited world =>
    rw [hw] at h
    refine ⟨waited, world, rfl, ?_⟩
    cases waited with
    | failed code =>
      obtain rfl := Except.ok.inj h
      exact .failed code
    | interrupted =>
      obtain rfl := Except.ok.inj h
      exact .interrupted
    | events ready =>
      obtain ⟨c', hc', rfl⟩ := Fault.map_eq_ok.mp h
      exact .events hc'

end Engine

end IrcLink
