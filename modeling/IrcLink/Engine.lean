import IrcLink.Cycle
import IrcLink.Poller

/-!
The engine: one cycle after another, each with a wait for events in its middle. The wait is cut short by whatever is
due, and only a wait that fails ends a cycle early; trouble with the connection is part of the outcome.
-/

namespace IrcLink

structure Engine (ω : Type) where
  connection : Connection
  world : World ω
  poller : Poller := {}

namespace Engine

variable {ω : Type} (S : System ω)

inductive CreateError where
  | poller (code : ErrorCode)
  | completionChannel (code : ErrorCode)
  deriving Repr, DecidableEq

def CreateError.message : CreateError → String
  | poller _ => "failed to create poller: "
  | completionChannel _ => "failed to claim completion channel: "

def CreateError.code : CreateError → ErrorCode
  | poller code => code
  | completionChannel code => code

structure WaitError where
  code : ErrorCode
  deriving Repr, DecidableEq

def WaitError.message (_ : WaitError) : String := "poll failed: "

def create (settings : LinkSettings) (now : Nat) (world : World ω) : Except CreateError (Engine ω) :=
  match world.call S (.createPoller settings.eventCapacity) with
  | (.error code, _) => .error (.poller code)
  | (.ok (), world) =>
    match world.call S (.createWaker completionToken) with
    | (.error code, _) => .error (.completionChannel code)
    | (.ok (), world) => .ok { connection := .create settings now, world }

def waitTimeout (c : Connection) (now : Nat) (timeout : Option Nat) : Option Nat :=
  match c.deadline? with
  | none => timeout
  | some deadline => some (match timeout with
    | none => deadline - now
    | some t => min t (deadline - now))

def collectAll (now : Nat) (c : Cycle ω) : Cycle ω :=
  match _h : c.world.collect S with
  | (none, world) => { c with world }
  | (some r, world) => collectAll now ({ c with world }.onLookup now r)
termination_by c.world.shared.outstanding
decreasing_by
  have := World.collect_outstanding S _h
  rw [Cycle.onLookup_world]
  simp only; omega

def onCompletion (now : Nat) (c : Cycle ω) : Cycle ω :=
  let (stop, world) := c.world.takeStop S
  let c := { c with world, outcome := { c.outcome with stopRequested := c.outcome.stopRequested || stop } }
  collectAll S now c

def dispatch (now : Nat) (c : Cycle ω) (e : Readiness) : Except Fault (Cycle ω) :=
  let c := { c with world := c.world.record S (.handled e) }
  if e.token = socketToken then c.onEvent S now e
  else if e.token = completionToken then .ok (onCompletion S now c)
  else .ok c

def finish (now : Nat) (poller : Poller) (c : Cycle ω) : Except WaitError Outcome × Engine ω × Buffers :=
  let c := c.afterEvents S now (World.startLookup S)
  (.ok c.outcome, ⟨c.connection, c.world, poller⟩, c.buffers)

def attend (now : Nat) (timeout : Option Nat) (poller : Poller) (c : Cycle ω) :
    Except Fault (Except WaitError Outcome × Engine ω × Buffers) :=
  match Poller.wait S poller c.connection.settings.eventCapacity (waitTimeout c.connection now timeout) c.world with
  | (.error code, poller, world) => .ok (.error ⟨code⟩, ⟨c.connection, world, poller⟩, c.buffers)
  | (.ok _, poller, world) =>
    let (ready, poller) := poller.takeReady
    (ready.foldlM (dispatch S now) { c with world }).map (finish S now (poller.restoreReady ready))

variable (e : Engine ω)

def cycle (b : Buffers) (now : Nat) (timeout : Option Nat) :
    Except Fault (Except WaitError Outcome × Engine ω × Buffers) := do
  let c ← Cycle.beforeWait S now ⟨e.connection, b, e.world, {}⟩
  attend S now timeout e.poller c

/-- Lets the socket go, if there is one. A socket that is closed is no longer watched. -/
def shutDown (c : Connection) (w : World ω) : World ω :=
  match c.socket? with
  | none => w
  | some s => w.close S s

end Engine

end IrcLink
