import IrcLink.Engine
import IrcLink.Session

/-!
The program's main loop: cycle after cycle of the engine, with the session told of every turn the connection takes. It
ends when another thread asks it to stop, with a parting word to the server if there is a connection.
-/

namespace IrcLink

def quitReason : String := "shutting down"

structure Bot (ω : Type) where
  config : Config
  engine : Engine ω
  buffers : Buffers
  session : Session Unit Unit

namespace Bot

variable {ω : Type} (S : System ω)

inductive Ended where
  | stopped
  | failed (e : Engine.WaitError)
  deriving Repr, DecidableEq

section

variable (b : Bot ω)

def notice (n : Notice) : Bot ω :=
  { b with engine := { b.engine with world := b.engine.world.record S (.notice n) } }

def tell : Bot ω :=
  let ctx := b.session.ctx
  ctx.notices.foldl (notice S) { b with session := { b.session with ctx := { ctx with notices := [] } } }

def wrote (r : Session Unit Unit × Ring) : Bot ω :=
  { b with session := r.1, buffers := { b.buffers with write := r.2 } }.tell S

def cycle (timeout : Nat) : Except Fault (Except Engine.WaitError Outcome × Bot ω) := do
  let (now, world) := b.engine.world.now S
  let (result, engine, buffers) ← { b.engine with world }.cycle S b.buffers now (some timeout)
  return (result, { b with engine, buffers })

def onLookupFailed : Bot ω := b.notice S (.resolveFailed b.config.server.host)

def onConnected : Bot ω :=
  let b := match b.engine.connection.peer? with
    | some peer => b.notice S (.connected peer.text)
    | none => b
  b.wrote S (b.session.greet b.buffers.write)

def process : Except Fault (Bot ω) := do
  let (session, buffers, _) ← b.session.process b.buffers
  return { b with session, buffers }.tell S

def onDisconnected : Bot ω :=
  let stats := b.engine.connection.stats
  let b := b.notice S (.disconnected stats.bytesRead stats.bytesWritten)
  { b with session := b.session.reset, buffers := b.buffers.clear }

def stop : Except Fault (Bot ω × Ended) := do
  let b := b.notice S .terminating
  if b.engine.connection.state = .connected then
    let b := b.wrote S (b.session.quit (some quitReason) b.buffers.write)
    let (result, b) ← b.cycle S 0
    match result with
    | .error e => return (b, .failed e)
    | .ok _ => return (b, .stopped)
  else return (b, .stopped)

/-- What follows a cycle: the session is told of the turns that the connection took, and looks at what was received. Says
whether that was the last time. -/
def afterCycle (outcome : Outcome) : Except Fault (Bot ω × Option Ended) := do
  let b := if outcome.lookupFailed then b.onLookupFailed S else b
  let b := if outcome.connected then b.onConnected S else b
  let b ← b.process S
  let b := if outcome.disconnected then b.onDisconnected S else b
  if outcome.stopRequested then
    let (b, ended) ← b.stop S
    return (b, some ended)
  else return (b, none)

def step : Except Fault (Bot ω × Option Ended) := do
  let (result, b) ← b.cycle S b.config.tuning.pollTimeout
  match result with
  | .error e => return (b, some (.failed e))
  | .ok outcome => b.afterCycle S outcome

end

def create (config : Config) (engine : Engine ω) : Except Fault (Bot ω) := do
  let buffers ← Buffers.create config.tuning.bufferSize
  let b : Bot ω := { config, engine, buffers, session := .create config () }
  return b.notice S (.starting config.server.host config.server.port)

/-- Goes round the loop up to so many times; without an end, it was not the last time. -/
def run : Nat → Bot ω → Except Fault (Bot ω × Option Ended)
  | 0, b => .ok (b, none)
  | n + 1, b => do
    match ← b.step S with
    | (b, some ended) => return (b, some ended)
    | (b, none) => run n b

end Bot

end IrcLink
