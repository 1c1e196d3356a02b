import IrcLink.Proofs.Engine.Conservation
import Mathlib.Logic.Relation

/-!
Runs of the engine, cut finer than its cycles: a cycle moves bytes, waits, hands over the events one after another and
does what is due, and between any two of these the engine stands at a point of the run. Every cycle is a path of such
steps, and there is one from wherever the engine stands idle, unless the operating system takes or gives more bytes
than were offered.
-/

namespace IrcLink

namespace Engine

variable {ω : Type} {S : System ω}

inductive Point (ω : Type) where
  | idle (e : Engine ω) (b : Buffers)
  /-- About to wait, in a cycle that was begun at this time and with this timeout. -/
  | waiting (now : Nat) (timeout : Option Nat) (c : Cycle ω)
  /-- These events of the wait are still to be handled. -/
  | handling (now : Nat) (c : Cycle ω) (left : List Readiness)

def Point.cycle : Point ω → Cycle ω
  | .idle e b => ⟨e.connection, b, e.world, {}⟩
  | .waiting _ _ c => c
  | .handling _ c _ => c

inductive Step (S : System ω) : Point ω → Point ω → Prop
  | begin {e : Engine ω} {b : Buffers} {now : Nat} (timeout : Option Nat) {c : Cycle ω}
      (h : Cycle.beforeWait S now ⟨e.connection, b, e.world, {}⟩ = .ok c) : Step S (.idle e b) (.waiting now timeout c)
  | failed {now : Nat} {timeout : Option Nat} {c : Cycle ω} {code : ErrorCode} {world : World ω}
      (h : c.world.wait S c.connection.settings.eventCapacity (waitTimeout c.connection now timeout) =
        (.failed code, world)) : Step S (.waiting now timeout c) (.idle ⟨c.connection, world, {}⟩ c.buffers)
  | interrupted {now : Nat} {timeout : Option Nat} {c : Cycle ω} {world : World ω}
      (h : c.world.wait S c.connection.settings.eventCapacity (waitTimeout c.connection now timeout) =
        (.interrupted, world)) : Step S (.waiting now timeout c) (.handling now { c with world } [])
  | ready {now : Nat} {timeout : Option Nat} {c : Cycle ω} {events : List Readiness} {world : World ω}
      (h : c.world.wait S c.connection.settings.eventCapacity (waitTimeout c.connection now timeout) =
        (.events events, world)) : Step S (.waiting now timeout c) (.handling now { c with world } events)
  | handle {now : Nat} {c c' : Cycle ω} {event : Readiness} {left : List Readiness}
      (h : dispatch S now c event = .ok c') : Step S (.handling now c (event :: left)) (.handling now c' left)
  | finish (now : Nat) (c : Cycle ω) :
      Step S (.handling now c [])
        (.idle ⟨(c.afterEvents S now (World.startLookup S)).connection, (c.afterEvents S now (World.startLookup S)).world, {}⟩
          (c.afterEvents S now (World.startLookup S)).buffers)

def Point.time? : Point ω → Option Nat
  | .idle .. => none
  | .waiting now .. => some now
  | .handling now .. => some now

structure StepAt (S : System ω) (now : Nat) (p q : Point ω) : Prop where
  step : Step S p q
  time : p.time?.or q.time? = some now

theorem Step.timed {p q : Point ω} (h : Step S p q) : ∃ now, StepAt S now p q := by
  cases h with
  | begin timeout h => exact ⟨_, .begin timeout h, rfl⟩
  | failed h => exact ⟨_, .failed h, rfl⟩
  | interrupted h => exact ⟨_, .interrupted h, rfl⟩
  | ready h => exact ⟨_, .ready h, rfl⟩
  | handle h => exact ⟨_, .handle h, rfl⟩
  | finish now c => exact ⟨_, .finish now c, rfl⟩

/-- Where a run comes to, with a caller that uses the buffers between cycles. -/
inductive Reached (S : System ω) (start : Point ω) : Point ω → Prop
  | start : Reached S start start
  | step {p q : Point ω} (hp : Reached S start p) (h : Step S p q) : Reached S start q
  | put {e : Engine ω} {b : Buffers} (hp : Reached S start (.idle e b)) (data : Bytes) :
      Reached S start (.idle e { b with write := (b.write.put data).1 })
  | get {e : Engine ω} {b : Buffers} (hp : Reached S start (.idle e b)) (n : Nat) :
      Reached S start (.idle e { b with read := (b.read.get n).2 })
  | clear {e : Engine ω} {b : Buffers} (hp : Reached S start (.idle e b)) : Reached S start (.idle e b.clear)

theorem Reached.steps {start p q : Point ω} (hp : Reached S start p) (h : Relation.ReflTransGen (Step S) p q) :
    Reached S start q := by
  induction h with
  | refl => exact hp
  | tail _ h ih => exact ih.step h

open IrcLink.Cycle

theorem wait_carries {on : Socket → Prop} {c : Cycle ω} {timeout : Option Nat} {waited : Call.Waited}
    {world : World ω} (h : c.world.wait S c.connection.settings.eventCapacity timeout = (waited, world)) :
    Carries on c { c with world } := by
  have hq := World.wait_quiet S c.world c.connection.settings.eventCapacity timeout
  rw [h] at hq
  exact .of_quiet hq rfl rfl rfl

theorem Step.carries {p q : Point ω} (h : Step S p q) : Carries p.cycle.onLink p.cycle q.cycle := by
  cases h with
  | begin timeout h => exact beforeWait_carries h
  | failed h => exact (wait_carries h).withOutcome {}
  | interrupted h => exact wait_carries h
  | ready h => exact wait_carries h
  | handle h => exact dispatch_carries h
  | finish now c => exact (afterEvents_carries c).withOutcome {}

theorem handle_stepsAt {now : Nat} {c c' : Cycle ω} {events : List Readiness}
    (h : events.foldlM (dispatch S now) c = .ok c') (left : List Readiness) :
    Relation.ReflTransGen (StepAt S now) (.handling now c (events ++ left)) (.handling now c' left) := by
  induction events generalizing c with
  | nil =>
    obtain rfl := Except.ok.inj h
    exact .refl
  | cons e events ih =>
    rw [List.foldlM_cons] at h
    obtain ⟨c₁, h₁, h⟩ := Fault.bind_eq_ok.mp h
    exact .head ⟨.handle h₁, rfl⟩ (ih h)

theorem handleAll_stepsAt {now : Nat} {c c' : Cycle ω} {events : List Readiness}
    (h : events.foldlM (dispatch S now) c = .ok c') :
    Relation.ReflTransGen (StepAt S now) (.handling now c events) (.handling now c' []) := by
  have hs := handle_stepsAt h []
  rwa [List.append_nil] at hs

theorem attend_stepsAt {c : Cycle ω} {now : Nat} {timeout : Option Nat} {poller : Poller}
    {r : Except WaitError Outcome × Engine ω × Buffers} (h : attend S now timeout poller c = .ok r) :
    Relation.ReflTransGen (StepAt S now) (.waiting now timeout c) (.idle r.2.1 r.2.2) := by
  obtain ⟨waited, world, hw, ha⟩ := attend_ok h
  cases ha with
  | failed code => exact .single ⟨.failed hw, rfl⟩
  | interrupted => exact .head ⟨.interrupted hw, rfl⟩ (.single ⟨.finish now _, rfl⟩)
  | events hc' => exact .head ⟨.ready hw, rfl⟩ ((handleAll_stepsAt hc').tail ⟨.finish now _, rfl⟩)

theorem cycle_stepsAt {e e' : Engine ω} {b b' : Buffers} {now : Nat} {timeout : Option Nat}
    {r : Except WaitError Outcome} (h : e.cycle S b now timeout = .ok (r, e', b')) :
    Relation.ReflTransGen (StepAt S now) (.idle e b) (.idle e' b') := by
  obtain ⟨c, hc, h⟩ := Fault.bind_eq_ok.mp h
  exact .head ⟨.begin timeout hc, rfl⟩ (attend_stepsAt h)

theorem handle_steps {now : Nat} {c c' : Cycle ω} {events : List Readiness}
    (h : events.foldlM (dispatch S now) c = .ok c') (left : List Readiness) :
    Relation.ReflTransGen (Step S) (.handling now c (events ++ left)) (.handling now c' left) :=
  Relation.ReflTransGen.mono (fun _ _ => StepAt.step) _ _ (handle_stepsAt h left)

theorem handleAll_steps {now : Nat} {c c' : Cycle ω} {events : List Readiness}
    (h : events.foldlM (dispatch S now) c = .ok c') :
    Relation.ReflTransGen (Step S) (.handling now c events) (.handling now c' []) :=
  Relation.ReflTransGen.mono (fun _ _ => StepAt.step) _ _ (handleAll_stepsAt h)

theorem cycle_steps {e e' : Engine ω} {b b' : Buffers} {now : Nat} {timeout : Option Nat}
    {r : Except WaitError Outcome} (h : e.cycle S b now timeout = .ok (r, e', b')) :
    Relation.ReflTransGen (Step S) (.idle e b) (.idle e' b') :=
  Relation.ReflTransGen.mono (fun _ _ => StepAt.step) _ _ (cycle_stepsAt h)

end Engine

namespace Cycle

variable {ω : Type} {S : System ω}

theorem receive_isOk (hS : S.Bounded) (c : Cycle ω) (s : Socket) : ∃ p, c.receive S s = .ok p := by
  obtain ⟨t, ht⟩ : ∃ t, Transfer.receive S s c.buffers.read c.world = .ok t := Transfer.receive_isOk hS
  simp only [receive, ht]
  exact ⟨_, rfl⟩

theorem transmit_isOk (hS : S.Bounded) (c : Cycle ω) (s : Socket) : ∃ p, c.transmit S s = .ok p := by
  obtain ⟨t, ht⟩ : ∃ t, Transfer.transmit S s c.buffers.write c.world = .ok t := Transfer.transmit_isOk hS
  simp only [transmit, ht]
  exact ⟨_, rfl⟩

theorem receiveIfRoom_isOk (hS : S.Bounded) (c : Cycle ω) (s : Socket) : ∃ p, c.receiveIfRoom S s = .ok p := by
  unfold receiveIfRoom
  split
  · exact ⟨_, rfl⟩
  · split
    · exact ⟨_, rfl⟩
    · obtain ⟨p, hp⟩ := receive_isOk hS c s
      rw [hp]
      exact ⟨_, rfl⟩

theorem transmitIfQueued_isOk (hS : S.Bounded) (c : Cycle ω) (s : Socket) : ∃ p, c.transmitIfQueued S s = .ok p := by
  unfold transmitIfQueued
  split
  · exact ⟨_, rfl⟩
  · split
    · exact ⟨_, rfl⟩
    · exact transmit_isOk hS c s

theorem sendAndWatch_isOk (hS : S.Bounded) (now : Nat) (c : Cycle ω) (s : Socket) (anew : Bool) :
    ∃ c', c.sendAndWatch S now s anew = .ok c' := by
  obtain ⟨⟨alive, c₁⟩, ht⟩ := transmitIfQueued_isOk hS c s
  rw [sendAndWatch, ht]
  cases alive <;> exact ⟨_, rfl⟩

theorem beforeWait_isOk (hS : S.Bounded) (now : Nat) (c : Cycle ω) : ∃ c', c.beforeWait S now = .ok c' := by
  unfold beforeWait
  split
  · rename_i s _ _
    obtain ⟨⟨alive, anew, c₁⟩, hr⟩ := receiveIfRoom_isOk hS c s
    rw [hr]
    cases alive with
    | false => exact ⟨_, rfl⟩
    | true => exact sendAndWatch_isOk hS now c₁ s anew
  · exact ⟨_, rfl⟩

theorem receiveReady_isOk (hS : S.Bounded) (c : Cycle ω) (e : Readiness) (s : Socket) :
    ∃ p, c.receiveReady S e s = .ok p := by
  unfold receiveReady
  split
  · exact receive_isOk hS c s
  · exact ⟨_, rfl⟩

theorem transmitReady_isOk (hS : S.Bounded) (c : Cycle ω) (s : Socket) : ∃ p, c.transmitReady S s = .ok p := by
  unfold transmitReady
  dsimp only
  split
  · exact ⟨_, rfl⟩
  · exact transmit_isOk hS _ s

theorem onConnected_isOk (hS : S.Bounded) (now : Nat) (c : Cycle ω) (e : Readiness) (s : Socket) :
    ∃ c', c.onConnected S now e s = .ok c' := by
  obtain ⟨⟨alive, c₁⟩, hr⟩ := receiveReady_isOk hS c e s
  rw [onConnected, hr]
  cases alive with
  | false => exact ⟨_, rfl⟩
  | true =>
    change ∃ c', c₁.hangUpOrSend S now e s = .ok c'
    unfold hangUpOrSend
    split
    · exact ⟨_, rfl⟩
    · split
      · obtain ⟨p, hp⟩ := transmitReady_isOk hS c₁ s
        rw [hp]
        exact ⟨_, rfl⟩
      · exact ⟨_, rfl⟩

theorem onEvent_isOk (hS : S.Bounded) (now : Nat) (c : Cycle ω) (e : Readiness) : ∃ c', c.onEvent S now e = .ok c' := by
  unfold onEvent
  split
  · exact ⟨_, rfl⟩
  · exact onConnected_isOk hS now c e _
  · exact ⟨_, rfl⟩

end Cycle

namespace Engine

variable {ω : Type} {S : System ω}

theorem dispatch_isOk (hS : S.Bounded) (now : Nat) (c : Cycle ω) (e : Readiness) : ∃ c', dispatch S now c e = .ok c' := by
  unfold dispatch
  split
  · exact Cycle.onEvent_isOk hS now _ e
  · split <;> exact ⟨_, rfl⟩

theorem dispatchAll_isOk (hS : S.Bounded) (now : Nat) (c : Cycle ω) (events : List Readiness) :
    ∃ c', events.foldlM (dispatch S now) c = .ok c' := by
  induction events generalizing c with
  | nil => exact ⟨c, rfl⟩
  | cons e events ih =>
    obtain ⟨c₁, h₁⟩ := dispatch_isOk hS now c e
    rw [List.foldlM_cons, h₁]
    exact ih c₁

theorem attend_isOk (hS : S.Bounded) (now : Nat) (timeout : Option Nat) (poller : Poller) (c : Cycle ω) :
    ∃ r e' b', attend S now timeout poller c = .ok (r, e', b') := by
  rw [attend_eq]
  split
  · exact ⟨_, _, _, rfl⟩
  · exact ⟨_, _, _, rfl⟩
  · rename_i ready world _
    obtain ⟨c', hc'⟩ := dispatchAll_isOk hS now { c with world } ready
    rw [hc']
    exact ⟨_, _, _, rfl⟩

theorem cycle_isOk (hS : S.Bounded) (e : Engine ω) (b : Buffers) (now : Nat) (timeout : Option Nat) :
    ∃ r e' b', e.cycle S b now timeout = .ok (r, e', b') := by
  obtain ⟨c, hc⟩ := Cycle.beforeWait_isOk hS now ⟨e.connection, b, e.world, {}⟩
  rw [cycle, hc]
  exact attend_isOk hS now timeout e.poller c

end Engine

end IrcLink
