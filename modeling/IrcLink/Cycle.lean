import IrcLink.Connection
import IrcLink.Dial
import IrcLink.Transfer

/-!
What can happen to the connection in one cycle of the engine: bytes move before the wait (`beforeWait`), events and the
result of a lookup come in (`onEvent`, `onLookup`), and what is due by the clock is done (`afterEvents`). Every step
takes the time as an argument; none reads a clock.
-/

namespace IrcLink

/-- What happened in a cycle. A connection that was made and lost sets both of its flags. -/
structure Outcome where
  connected : Bool := false
  disconnected : Bool := false
  stopRequested : Bool := false
  lookupFailed : Bool := false
  deriving Repr, DecidableEq

structure Cycle (ω : Type) where
  connection : Connection
  buffers : Buffers
  world : World ω
  outcome : Outcome := {}

namespace Cycle

variable {ω : Type} (S : System ω) (now : Nat) (c : Cycle ω)

def setPhase (phase : Phase) : Cycle ω := { c with connection := { c.connection with phase } }

def setFlow (flow : Flow) : Cycle ω := { c with connection := { c.connection with flow } }

def countStats (f : Stats → Stats) : Cycle ω :=
  { c with connection := { c.connection with stats := f c.connection.stats } }

def lose (s : Socket) : Cycle ω :=
  { c with
    connection := { c.connection.pause now with
      flow := {}
      writeInterest := false
      stats := { c.connection.stats with losses := c.connection.stats.losses + 1 } }
    world := c.world.abandon S s
    outcome := { c.outcome with disconnected := true } }

def dialFirst (c : Cycle ω) : List SocketAddress → Cycle ω
  | [] => { c with connection := c.connection.pause now }
  | a :: rest =>
    let c := c.countStats fun t => { t with dials := t.dials + 1 }
    match c.world.dialWatched S c.connection.settings.noDelay a with
    | (some s, world) =>
      { c with world }.setPhase (.connecting s a rest (now + c.connection.settings.connectTimeout))
    | (none, world) => dialFirst { c with world } rest

def nextAddress : Cycle ω :=
  match c.connection.phase with
  | .resolved first rest => c.dialFirst S now (first :: rest)
  | .connecting s _ rest _ => { c with world := c.world.abandon S s }.dialFirst S now rest
  | _ => c

def receive (s : Socket) : Except Fault (Bool × Cycle ω) := do
  let t ← Transfer.receive S s c.buffers.read c.world
  let flow := match t.stop with
    | .ring => { c.connection.flow with readFull := true }
    | .wouldBlock => { c.connection.flow with readFull := false }
    | .lost => c.connection.flow
  let c := { c with buffers := { c.buffers with read := t.ring }, world := t.world.record S (.receiveEnded t.stop) }
  return (t.stop ≠ .lost, (c.setFlow flow).countStats fun n => { n with bytesRead := n.bytesRead + t.moved })

def transmit (s : Socket) : Except Fault (Bool × Cycle ω) := do
  let t ← Transfer.transmit S s c.buffers.write c.world
  let flow := match t.stop with
    | .ring => { c.connection.flow with writeFull := false }
    | .wouldBlock => { c.connection.flow with writeFull := true }
    | .lost => c.connection.flow
  let c := { c with buffers := { c.buffers with write := t.ring }, world := t.world }
  return (t.stop ≠ .lost, (c.setFlow flow).countStats fun n => { n with bytesWritten := n.bytesWritten + t.moved })

/-- Reads if there is room. After a read that stopped for want of room nothing is read; the socket is to be watched
anew instead. Says whether the stream is still there, and whether to watch anew. -/
def receiveIfRoom (s : Socket) : Except Fault (Bool × Bool × Cycle ω) :=
  if c.buffers.read.free = 0 then .ok (true, false, c)
  else if c.connection.flow.readFull then
    .ok (true, true, (c.setFlow { c.connection.flow with readFull := false }).countStats
      fun n => { n with rearms := n.rearms + 1 })
  else (c.receive S s).map fun (alive, c) => (alive, false, c)

def transmitIfQueued (s : Socket) : Except Fault (Bool × Cycle ω) :=
  if c.buffers.write.isEmpty then .ok (true, c.setFlow { c.connection.flow with writeFull := false })
  else if c.connection.flow.writeFull then .ok (true, c)
  else c.transmit S s

/-- Watches the socket for writing exactly if bytes are left that it did not take. -/
def watch (s : Socket) (anew : Bool) : Bool × Cycle ω :=
  let want := c.connection.flow.writeFull
  if anew || want != c.connection.writeInterest then
    match c.world.call S (.reregister s socketToken (if want then .readWrite else .read)) with
    | (.ok (), world) => (true, { c with connection := { c.connection with writeInterest := want }, world })
    | (.error _, world) => (false, { c with world })
  else (true, c)

def sendAndWatch (s : Socket) (anew : Bool) : Except Fault (Cycle ω) := do
  let (alive, c) ← c.transmitIfQueued S s
  if !alive then return c.lose S now s
  let (alive, c) := c.watch S s anew
  return if alive then c else c.lose S now s

def beforeWait : Except Fault (Cycle ω) :=
  match c.connection.phase with
  | .connected s _ => do
    let (alive, anew, c) ← c.receiveIfRoom S s
    if alive then c.sendAndWatch S now s anew else return c.lose S now s
  | _ => .ok c

def hasConnected (w : World ω) (s : Socket) : Option Bool × World ω :=
  match w.call S (.takeError s) with
  | (.error _, w) => (some false, w)
  | (.ok (some _), w) => (some false, w)
  | (.ok none, w) =>
    match w.call S (.peerAddress s) with
    | (.known, w) => (some true, w)
    | (.notConnected, w) => (none, w)
    | (.failed _, w) => (some false, w)

def connect (s : Socket) (peer : SocketAddress) : Cycle ω :=
  { c with
    connection := { c.connection with phase := .connected s peer, flow := {}, writeInterest := false }
    outcome := { c.outcome with connected := true } }

def onConnecting (e : Readiness) (s : Socket) (address : SocketAddress) : Cycle ω :=
  if e.error || e.closed then { c with world := (c.world.call S (.takeError s)).2 }.nextAddress S now
  else if e.writable then
    match hasConnected S c.world s with
    | (none, world) => { c with world }
    | (some false, world) => { c with world }.nextAddress S now
    | (some true, world) =>
      match world.call S (.reregister s socketToken .read) with
      | (.ok (), world) => { c with world }.connect s address
      | (.error _, world) => { c with world }.nextAddress S now
  else c

def receiveReady (e : Readiness) (s : Socket) : Except Fault (Bool × Cycle ω) :=
  if e.readable && c.buffers.read.free ≠ 0 then c.receive S s else .ok (true, c)

def transmitReady (s : Socket) : Except Fault (Bool × Cycle ω) :=
  let c := c.setFlow { c.connection.flow with writeFull := false }
  if c.buffers.write.isEmpty then .ok (true, c) else c.transmit S s

def hangUpOrSend (e : Readiness) (s : Socket) : Except Fault (Cycle ω) :=
  if e.error || e.closed then .ok ({ c with world := (c.world.call S (.takeError s)).2 }.lose S now s)
  else if e.writable then (c.transmitReady S s).map fun (alive, c) => if alive then c else c.lose S now s
  else .ok c

/-- What came ahead of a hangup is read before the connection is given up. -/
def onConnected (e : Readiness) (s : Socket) : Except Fault (Cycle ω) := do
  let (alive, c) ← c.receiveReady S e s
  if alive then c.hangUpOrSend S now e s else return c.lose S now s

def onEvent (e : Readiness) : Except Fault (Cycle ω) :=
  match c.connection.phase with
  | .connecting s address .. => .ok (c.onConnecting S now e s address)
  | .connected s _ => c.onConnected S now e s
  | _ => .ok c

def failLookup : Cycle ω :=
  { c with connection := c.connection.pause now, outcome := { c.outcome with lookupFailed := true } }

def onLookup (r : Resolution) : Cycle ω :=
  match c.connection.phase, r with
  | .resolving, .ok (first :: rest) => c.setPhase (.resolved first rest)
  | .resolving, _ => c.failLookup now
  | _, _ => c

theorem onLookup_world (r : Resolution) : (c.onLookup now r).world = c.world := by
  unfold onLookup
  split <;> rfl

abbrev Start (ω : Type) := Lookup → World ω → Except LookupError Unit × World ω

def afterEvents (start : Start ω) : Cycle ω :=
  match c.connection.phase with
  | .disconnected retryAt =>
    if retryAt ≤ now then
      let l : Lookup := ⟨c.connection.settings.host, c.connection.settings.port⟩
      match start l c.world with
      | (.ok (), world) => { c with world := world.record S (.asked l none) }.setPhase .resolving
      | (.error e, world) => { c with world := world.record S (.asked l (some e)) }.failLookup now
    else c
  | .resolved .. => c.nextAddress S now
  | .connecting _ _ _ deadline => if deadline ≤ now then c.nextAddress S now else c
  | _ => c

end Cycle

end IrcLink
