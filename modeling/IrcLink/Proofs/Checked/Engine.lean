import IrcLink.Proofs.Checked.Ring
import IrcLink.Proofs.Engine.Run

/-!
A cycle asks of its rings what they can do, and takes a connection for made only while one is being made. Where the
program takes the phase out to work on it, it leaves another behind: every statement here is about any such
placeholder, so that nothing can depend on it.
-/

namespace IrcLink.Checked

variable {ω : Type} (S : System ω)

namespace Transfer

variable (s : Socket)

def receiveOnce (ring : Ring) (w : World ω) : Except Panic (Try ω) := do
  let span ← Ring.writeSpan ring
  if span = [] then return .passed (.stopped .ring w)
  else
    match w.call S (.read s span.length) with
    | (.bytes [], w) => return .passed (.stopped .lost w)
    | (.bytes data, w) =>
      return .passed (.moved data.length (← Ring.reserve (ring.overwriteSpan data) data.length) w)
    | (.interrupted, w) => return .interrupted w
    | (.wouldBlock, w) => return .passed (.stopped .wouldBlock w)
    | (.failed _, w) => return .passed (.stopped .lost w)

def transmitOnce (ring : Ring) (w : World ω) : Except Panic (Try ω) :=
  if ring.isEmpty then return .passed (.stopped .ring w)
  else do
    match w.call S (.write s (← Ring.readSpan ring)) with
    | (.accepted 0, w) => return .passed (.stopped .lost w)
    | (.accepted n, w) => return .passed (.moved n (← Ring.consume ring n) w)
    | (.interrupted, w) => return .interrupted w
    | (.wouldBlock, w) => return .passed (.stopped .wouldBlock w)
    | (.failed _, w) => return .passed (.stopped .lost w)

def receivePass (ring : Ring) (w : World ω) : Except Panic (Pass ω) := do
  match ← receiveOnce S s ring w with
  | .passed p => return p
  | .interrupted w' =>
    let c := Call.read s ring.writeSpanLength
    if _h : S.interruptions c w'.os < S.interruptions c w.os then receivePass ring w' else throw .endless
termination_by S.interruptions (.read s ring.writeSpanLength) w.os

def transmitPass (ring : Ring) (w : World ω) : Except Panic (Pass ω) := do
  match ← transmitOnce S s ring w with
  | .passed p => return p
  | .interrupted w' =>
    let c := Call.write s ring.readSpan
    if _h : S.interruptions c w'.os < S.interruptions c w.os then transmitPass ring w' else throw .endless
termination_by S.interruptions (.write s ring.readSpan) w.os

def receive (ring : Ring) (w : World ω) : Except Panic (Transferred ω) := do
  match ← receivePass S s ring w with
  | .stopped stop w => return ⟨stop, 0, ring, w⟩
  | .moved n ring' w' =>
    if _h : ring'.free < ring.free then
      let t ← receive ring' w'
      return { t with moved := n + t.moved }
    else throw .endless
termination_by ring.free

def transmit (ring : Ring) (w : World ω) : Except Panic (Transferred ω) := do
  match ← transmitPass S s ring w with
  | .stopped stop w => return ⟨stop, 0, ring, w⟩
  | .moved n ring' w' =>
    if _h : ring'.len < ring.len then
      let t ← transmit ring' w'
      return { t with moved := n + t.moved }
    else throw .endless
termination_by ring.len

variable {S s} {ring : Ring} {w : World ω}

theorem receiveOnce_eq (h : ring.WellFormed) :
    receiveOnce S s ring w = lift (IrcLink.Transfer.receiveOnce S s ring w) := by
  have hspan : ring.freeSpan = [] ↔ ring.writeSpanLength = 0 := by
    rw [← List.length_eq_zero_iff, Ring.freeSpan_length]
  rw [receiveOnce, Ring.writeSpan_eq h, IrcLink.Transfer.receiveOnce]
  dsimp only [bind, Except.bind]
  by_cases hz : ring.writeSpanLength = 0
  · rw [if_pos (hspan.mpr hz), if_pos hz]
    rfl
  · rw [if_neg (mt hspan.mp hz), if_neg hz, Ring.freeSpan_length]
    cases w.call S (.read s ring.writeSpanLength) with
    | mk a w' =>
      cases a with
      | bytes data =>
        cases data with
        | nil => rfl
        | cons b data =>
          exact map_lift (Ring.reserve_eq (Ring.overwriteSpan_wellFormed h _) _) fun r =>
            Try.passed (.moved (b :: data).length r w')
      | interrupted | wouldBlock | failed => rfl

theorem transmitOnce_eq (h : ring.WellFormed) :
    transmitOnce S s ring w = lift (IrcLink.Transfer.transmitOnce S s ring w) := by
  rw [transmitOnce, Ring.readSpan_eq h, IrcLink.Transfer.transmitOnce]
  by_cases he : ring.isEmpty
  · rw [if_pos he, if_pos he]
    rfl
  · rw [if_neg he, if_neg he]
    dsimp only [bind, Except.bind]
    cases w.call S (.write s ring.readSpan) with
    | mk a w' =>
      cases a with
      | accepted n =>
        cases n with
        | zero => rfl
        | succ n => exact map_lift (Ring.consume_eq h _) fun r => Try.passed (.moved (n + 1) r w')
      | interrupted | wouldBlock | failed => rfl

theorem receivePass_eq (h : ring.WellFormed) :
    receivePass S s ring w = lift (IrcLink.Transfer.receivePass S s ring w) := by
  fun_induction IrcLink.Transfer.receivePass S s ring w with
  | case1 w f hf =>
    rw [receivePass, receiveOnce_eq h, hf]
    rfl
  | case2 w p hp =>
    rw [receivePass, receiveOnce_eq h, hp]
    rfl
  | case3 w w' hi ih =>
    have hlt := World.call_interruptions S (IrcLink.Transfer.receiveOnce_interrupted S s hi) rfl
    rw [receivePass, receiveOnce_eq h, hi, ← ih]
    exact dif_pos hlt

theorem transmitPass_eq (h : ring.WellFormed) :
    transmitPass S s ring w = lift (IrcLink.Transfer.transmitPass S s ring w) := by
  fun_induction IrcLink.Transfer.transmitPass S s ring w with
  | case1 w f hf =>
    rw [transmitPass, transmitOnce_eq h, hf]
    rfl
  | case2 w p hp =>
    rw [transmitPass, transmitOnce_eq h, hp]
    rfl
  | case3 w w' hi ih =>
    have hlt := World.call_interruptions S (IrcLink.Transfer.transmitOnce_interrupted S s hi) rfl
    rw [transmitPass, transmitOnce_eq h, hi, ← ih]
    exact dif_pos hlt

theorem receive_eq (h : ring.WellFormed) : receive S s ring w = lift (IrcLink.Transfer.receive S s ring w) := by
  induction ring, w using IrcLink.Transfer.receive.induct S s with
  | case1 ring w f hp =>
    rw [receive, receivePass_eq h, hp, IrcLink.Transfer.receive, hp]
    rfl
  | case2 ring w stop w' hp =>
    rw [receive, receivePass_eq h, hp, IrcLink.Transfer.receive_of_stopped hp]
    rfl
  | case3 ring w n ring' w' hp ih =>
    obtain ⟨_, data, -, -, hle, rfl⟩ := IrcLink.Transfer.receivePass_moved hp
    rw [receive, receivePass_eq h, hp, IrcLink.Transfer.receive_of_moved hp]
    dsimp only [bind, Except.bind, lift_ok]
    rw [dif_pos (IrcLink.Transfer.receivePass_free S s hp)]
    exact map_lift (ih (Ring.fill_wellFormed h hle)) fun t => { t with moved := n + t.moved }

theorem transmit_eq (h : ring.WellFormed) : transmit S s ring w = lift (IrcLink.Transfer.transmit S s ring w) := by
  induction ring, w using IrcLink.Transfer.transmit.induct S s with
  | case1 ring w f hp =>
    rw [transmit, transmitPass_eq h, hp, IrcLink.Transfer.transmit, hp]
    rfl
  | case2 ring w stop w' hp =>
    rw [transmit, transmitPass_eq h, hp, IrcLink.Transfer.transmit_of_stopped hp]
    rfl
  | case3 ring w n ring' w' hp ih =>
    obtain ⟨_, -, hle, rfl⟩ := IrcLink.Transfer.transmitPass_moved hp
    rw [transmit, transmitPass_eq h, hp, IrcLink.Transfer.transmit_of_moved hp]
    dsimp only [bind, Except.bind, lift_ok]
    rw [dif_pos (IrcLink.Transfer.transmitPass_len S s hp)]
    exact map_lift (ih (Ring.advanceHead_wellFormed h hle)) fun t => { t with moved := n + t.moved }

end Transfer

variable (placeholder : Phase) (now : Nat)

namespace Cycle

variable (c : Cycle ω)

def takePhase : Phase × Cycle ω := (c.connection.phase, c.setPhase placeholder)

def nextAddress : Cycle ω :=
  match takePhase placeholder c with
  | (.resolved first rest, c) => c.dialFirst S now (first :: rest)
  | (.connecting s _ rest _, c) => { c with world := c.world.abandon S s }.dialFirst S now rest
  | (other, c) => c.setPhase other

def establish : Except Panic (Cycle ω) :=
  match takePhase placeholder c with
  | (.connecting s address _ _, c) => return c.connect s address
  | _ => throw .unreachable

def receive (s : Socket) : Except Panic (Bool × Cycle ω) := do
  let t ← Transfer.receive S s c.buffers.read c.world
  let c := { c with buffers := { c.buffers with read := t.ring }, world := t.world.record S (.receiveEnded t.stop) }
  return (t.stop ≠ .lost, (c.setFlow (c.connection.flow.received t.stop)).countStats
    fun n => { n with bytesRead := n.bytesRead + t.moved })

def transmit (s : Socket) : Except Panic (Bool × Cycle ω) := do
  let t ← Transfer.transmit S s c.buffers.write c.world
  let c := { c with buffers := { c.buffers with write := t.ring }, world := t.world }
  return (t.stop ≠ .lost, (c.setFlow (c.connection.flow.transmitted t.stop)).countStats
    fun n => { n with bytesWritten := n.bytesWritten + t.moved })

def receiveIfRoom (s : Socket) : Except Panic (Bool × Bool × Cycle ω) := do
  if (← Ring.free c.buffers.read) = 0 then return (true, false, c)
  else if c.connection.flow.readFull then
    return (true, true, (c.setFlow { c.connection.flow with readFull := false }).countStats
      fun n => { n with rearms := n.rearms + 1 })
  else
    let (alive, c) ← receive S c s
    return (alive, false, c)

def transmitIfQueued (s : Socket) : Except Panic (Bool × Cycle ω) :=
  if c.buffers.write.isEmpty then return (true, c.setFlow { c.connection.flow with writeFull := false })
  else if c.connection.flow.writeFull then return (true, c)
  else transmit S c s

def sendAndWatch (s : Socket) (anew : Bool) : Except Panic (Cycle ω) := do
  let (alive, c) ← transmitIfQueued S c s
  if !alive then return c.lose S now s
  let (alive, c) := c.watch S s anew
  return if alive then c else c.lose S now s

def beforeWait : Except Panic (Cycle ω) :=
  match c.connection.phase with
  | .connected s _ => do
    let (alive, anew, c) ← receiveIfRoom S c s
    if alive then sendAndWatch S now c s anew else return c.lose S now s
  | _ => return c

def onConnecting (e : Readiness) (s : Socket) : Except Panic (Cycle ω) :=
  if e.error || e.closed then
    return nextAddress S placeholder now { c with world := (c.world.call S (.takeError s)).2 }
  else if e.writable then
    match IrcLink.Cycle.hasConnected S c.world s with
    | (none, world) => return { c with world }
    | (some false, world) => return nextAddress S placeholder now { c with world }
    | (some true, world) =>
      match world.call S (.reregister s socketToken .read) with
      | (.ok (), world) => establish placeholder { c with world }
      | (.error _, world) => return nextAddress S placeholder now { c with world }
  else return c

def receiveReady (e : Readiness) (s : Socket) : Except Panic (Bool × Cycle ω) := do
  if e.readable && (← Ring.free c.buffers.read) ≠ 0 then receive S c s else return (true, c)

def transmitReady (s : Socket) : Except Panic (Bool × Cycle ω) :=
  let c := c.setFlow { c.connection.flow with writeFull := false }
  if c.buffers.write.isEmpty then return (true, c) else transmit S c s

def hangUpOrSend (e : Readiness) (s : Socket) : Except Panic (Cycle ω) :=
  if e.error || e.closed then return { c with world := (c.world.call S (.takeError s)).2 }.lose S now s
  else if e.writable then do
    let (alive, c) ← transmitReady S c s
    return if alive then c else c.lose S now s
  else return c

def onConnected (e : Readiness) (s : Socket) : Except Panic (Cycle ω) := do
  let (alive, c) ← receiveReady S c e s
  if alive then hangUpOrSend S now c e s else return c.lose S now s

def onEvent (e : Readiness) : Except Panic (Cycle ω) :=
  match c.connection.phase with
  | .connecting s .. => onConnecting S placeholder now c e s
  | .connected s _ => onConnected S now c e s
  | _ => return c

def afterEvents (start : IrcLink.Cycle.Start ω) : Cycle ω :=
  match c.connection.phase with
  | .resolved .. => nextAddress S placeholder now c
  | .connecting _ _ _ deadline => if deadline ≤ now then nextAddress S placeholder now c else c
  | _ => c.afterEvents S now start

variable {S placeholder now c} {c' : Cycle ω} {s : Socket} {C : Nat}

theorem dialFirst_setPhase (c : Cycle ω) (addresses : List SocketAddress) :
    (c.setPhase placeholder).dialFirst S now addresses = c.dialFirst S now addresses := by
  induction addresses generalizing c with
  | nil => rfl
  | cons a rest ih =>
    rw [IrcLink.Cycle.dialFirst, IrcLink.Cycle.dialFirst]
    dsimp only [IrcLink.Cycle.setPhase, IrcLink.Cycle.countStats]
    cases c.world.dialWatched S c.connection.settings.noDelay a with
    | mk dialled world =>
      cases dialled with
      | some s => rfl
      | none => exact ih { c.countStats fun t => { t with dials := t.dials + 1 } with world }

theorem nextAddress_eq (c : Cycle ω) : nextAddress S placeholder now c = c.nextAddress S now := by
  rw [nextAddress, takePhase, IrcLink.Cycle.nextAddress]
  cases hp : c.connection.phase with
  | resolved first rest => exact dialFirst_setPhase c (first :: rest)
  | connecting s a rest deadline => exact dialFirst_setPhase { c with world := c.world.abandon S s } rest
  | disconnected | resolving | connected =>
    dsimp only [IrcLink.Cycle.setPhase]
    rw [← hp]

theorem establish_eq {a : SocketAddress} {rest : List SocketAddress} {deadline : Nat}
    (hp : c.connection.phase = .connecting s a rest deadline) : establish placeholder c = .ok (c.connect s a) := by
  rw [establish, takePhase, hp]
  rfl

theorem receive_eq (h : c.buffers.Hold C) : receive S c s = lift (c.receive S s) := by
  refine bind_lift (Transfer.receive_eq h.read_wellFormed) fun t _ => ?_
  cases t.stop <;> rfl

theorem transmit_eq (h : c.buffers.Hold C) : transmit S c s = lift (c.transmit S s) := by
  refine bind_lift (Transfer.transmit_eq h.write_wellFormed) fun t _ => ?_
  cases t.stop <;> rfl

theorem receiveIfRoom_eq (h : c.buffers.Hold C) : receiveIfRoom S c s = lift (c.receiveIfRoom S s) := by
  rw [receiveIfRoom, Ring.free_eq h.read_wellFormed, IrcLink.Cycle.receiveIfRoom]
  dsimp only [bind, Except.bind]
  split
  · rfl
  · split
    · rfl
    · exact map_lift (receive_eq h) fun p => (p.1, false, p.2)

theorem transmitIfQueued_eq (h : c.buffers.Hold C) : transmitIfQueued S c s = lift (c.transmitIfQueued S s) := by
  unfold transmitIfQueued IrcLink.Cycle.transmitIfQueued
  split
  · rfl
  · split
    · rfl
    · exact transmit_eq h

theorem sendAndWatch_eq (h : c.buffers.Hold C) (anew : Bool) :
    sendAndWatch S now c s anew = lift (c.sendAndWatch S now s anew) := by
  refine bind_lift (transmitIfQueued_eq h) fun p _ => ?_
  obtain ⟨alive, c₁⟩ := p
  cases alive <;> rfl

theorem beforeWait_eq (h : c.buffers.Hold C) : beforeWait S now c = lift (c.beforeWait S now) := by
  unfold beforeWait IrcLink.Cycle.beforeWait
  cases hp : c.connection.phase with
  | connected s peer =>
    have hs : c.onLink s := ⟨peer, hp⟩
    refine bind_lift (receiveIfRoom_eq h) fun p hr => ?_
    obtain ⟨alive, anew, c₁⟩ := p
    cases alive with
    | false => rfl
    | true => exact sendAndWatch_eq ((IrcLink.Cycle.receiveIfRoom_carries hs hr).hold h) anew
  | disconnected | resolving | resolved | connecting => rfl

theorem onConnecting_eq {a : SocketAddress} {rest : List SocketAddress} {deadline : Nat}
    (hp : c.connection.phase = .connecting s a rest deadline) (e : Readiness) :
    onConnecting S placeholder now c e s = .ok (c.onConnecting S now e s a) := by
  unfold onConnecting IrcLink.Cycle.onConnecting
  simp only [nextAddress_eq]
  split
  · rfl
  · split
    · cases IrcLink.Cycle.hasConnected S c.world s with
      | mk connected world =>
        cases connected with
        | none => rfl
        | some made =>
          cases made with
          | false => rfl
          | true =>
            dsimp only
            cases world.call S (.reregister s socketToken .read) with
            | mk answer world =>
              cases answer with
              | ok => exact establish_eq hp
              | error code => rfl
    · rfl

theorem receiveReady_eq (h : c.buffers.Hold C) (e : Readiness) : receiveReady S c e s = lift (c.receiveReady S e s) := by
  rw [receiveReady, Ring.free_eq h.read_wellFormed, IrcLink.Cycle.receiveReady]
  dsimp only [bind, Except.bind]
  split
  · exact receive_eq h
  · rfl

theorem transmitReady_eq (h : c.buffers.Hold C) : transmitReady S c s = lift (c.transmitReady S s) := by
  unfold transmitReady IrcLink.Cycle.transmitReady
  dsimp only
  split
  · rfl
  · exact transmit_eq (c := c.setFlow { c.connection.flow with writeFull := false }) h

theorem hangUpOrSend_eq (h : c.buffers.Hold C) (e : Readiness) :
    hangUpOrSend S now c e s = lift (c.hangUpOrSend S now e s) := by
  unfold hangUpOrSend IrcLink.Cycle.hangUpOrSend
  split
  · rfl
  · split
    · exact map_lift (transmitReady_eq h) fun p => if p.1 then p.2 else p.2.lose S now s
    · rfl

theorem onConnected_eq (h : c.buffers.Hold C) (hs : c.onLink s) (e : Readiness) :
    onConnected S now c e s = lift (c.onConnected S now e s) := by
  refine bind_lift (receiveReady_eq h e) fun p hr => ?_
  obtain ⟨alive, c₁⟩ := p
  cases alive with
  | false => rfl
  | true => exact hangUpOrSend_eq ((IrcLink.Cycle.receiveReady_carries hs hr).hold h) e

theorem onEvent_eq (h : c.buffers.Hold C) (e : Readiness) : onEvent S placeholder now c e = lift (c.onEvent S now e) := by
  unfold onEvent IrcLink.Cycle.onEvent
  cases hp : c.connection.phase with
  | connecting s a rest deadline => exact onConnecting_eq hp e
  | connected s peer => exact onConnected_eq h ⟨peer, hp⟩ e
  | disconnected | resolving | resolved => rfl

theorem afterEvents_eq (start : IrcLink.Cycle.Start ω) :
    afterEvents S placeholder now c start = c.afterEvents S now start := by
  unfold afterEvents
  cases hp : c.connection.phase with
  | resolved first rest => 
    dsimp only
    rw [nextAddress_eq, IrcLink.Cycle.afterEvents, hp]
  | connecting s a rest deadline =>
    dsimp only
    rw [nextAddress_eq, IrcLink.Cycle.afterEvents, hp]
  | disconnected | resolving | connected => rfl

end Cycle

namespace Engine

open IrcLink.Engine

def dispatch (c : Cycle ω) (e : Readiness) : Except Panic (Cycle ω) :=
  let c := { c with world := c.world.record S (.handled e) }
  if e.token = socketToken then Cycle.onEvent S placeholder now c e
  else if e.token = completionToken then return onCompletion S now c
  else return c

def finish (poller : Poller) (c : Cycle ω) : Except WaitError Outcome × Engine ω × Buffers :=
  let c := Cycle.afterEvents S placeholder now c (World.startLookup S)
  (.ok c.outcome, ⟨c.connection, c.world, poller⟩, c.buffers)

def attend (timeout : Option Nat) (poller : Poller) (c : Cycle ω) :
    Except Panic (Except WaitError Outcome × Engine ω × Buffers) := do
  match Poller.wait S poller c.connection.settings.eventCapacity (waitTimeout c.connection now timeout) c.world with
  | (.error code, poller, world) => return (.error ⟨code⟩, ⟨c.connection, world, poller⟩, c.buffers)
  | (.ok _, poller, world) =>
    let (ready, poller) := poller.takeReady
    let c ← ready.foldlM (dispatch S placeholder now) { c with world }
    return finish S placeholder now (poller.restoreReady ready) c

def cycle (e : Engine ω) (b : Buffers) (timeout : Option Nat) :
    Except Panic (Except WaitError Outcome × Engine ω × Buffers) := do
  let c ← Cycle.beforeWait S now ⟨e.connection, b, e.world, {}⟩
  attend S placeholder now timeout e.poller c

variable {S placeholder now} {c : Cycle ω} {C : Nat}

theorem dispatch_eq (h : c.buffers.Hold C) (e : Readiness) :
    dispatch S placeholder now c e = lift (IrcLink.Engine.dispatch S now c e) := by
  unfold dispatch IrcLink.Engine.dispatch
  dsimp only
  split
  · exact Cycle.onEvent_eq (c := { c with world := c.world.record S (.handled e) }) h e
  · split <;> rfl

theorem dispatchAll_eq (h : c.buffers.Hold C) (events : List Readiness) :
    events.foldlM (dispatch S placeholder now) c = lift (events.foldlM (IrcLink.Engine.dispatch S now) c) := by
  induction events generalizing c with
  | nil => rfl
  | cons e events ih =>
    rw [List.foldlM_cons, List.foldlM_cons]
    exact bind_lift (dispatch_eq h e) fun c' hc' => ih ((dispatch_carries hc').hold h)

theorem finish_eq (poller : Poller) (c : Cycle ω) :
    finish S placeholder now poller c = IrcLink.Engine.finish S now poller c := by
  rw [finish, Cycle.afterEvents_eq]
  rfl

theorem attend_eq (h : c.buffers.Hold C) (timeout : Option Nat) (poller : Poller) :
    attend S placeholder now timeout poller c = lift (IrcLink.Engine.attend S now timeout poller c) := by
  unfold attend IrcLink.Engine.attend
  simp only [finish_eq]
  generalize Poller.wait S poller _ _ c.world = waited
  obtain ⟨n, poller, world⟩ := waited
  cases n with
  | error code => rfl
  | ok n => exact map_lift (dispatchAll_eq (c := { c with world }) h poller.ready) (IrcLink.Engine.finish S now _)

theorem cycle_eq {b : Buffers} (h : b.Hold C) (e : Engine ω) (timeout : Option Nat) :
    cycle S placeholder now e b timeout = lift (e.cycle S b now timeout) :=
  bind_lift (Cycle.beforeWait_eq h) fun _ hc => attend_eq ((IrcLink.Cycle.beforeWait_carries hc).hold h) timeout e.poller

end Engine

end IrcLink.Checked
