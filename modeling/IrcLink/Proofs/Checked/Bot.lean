import IrcLink.Proofs.Bot.Isolation
import IrcLink.Proofs.Checked.Engine
import IrcLink.Proofs.Checked.Session
import IrcLink.Proofs.Engine.Lossless

/-!
Nothing stops the main loop short: whatever the server sends, the operating system answers and the events are, it asks
for nothing that is not there. What it asks of the parts it is made of has been gone through in the other modules; here
the rings are kept in order and the handlers in place from one turn to the next.
-/

namespace IrcLink

namespace Checked

namespace Bot

open IrcLink.Bot

variable {ω : Type} (S : System ω) (placeholder : Phase)

section

variable (b : Bot ω)

def cycle (timeout : Nat) : Except Panic (Except Engine.WaitError Outcome × Bot ω) := do
  let (now, world) := b.engine.world.now S
  let (result, engine, buffers) ← Engine.cycle S placeholder now { b.engine with world } b.buffers (some timeout)
  return (result, { b with engine, buffers })

def onConnected : Except Panic (Bot ω) := do
  let b := match b.engine.connection.peer? with
    | some peer => b.notice S (.connected peer.text)
    | none => b
  return b.wrote S (← Session.greet b.session b.buffers.write)

def process : Except Panic (Bot ω) := do
  let (session, buffers, _) ← Session.process b.session b.buffers
  return { b with session, buffers }.tell S

def stop : Except Panic (Bot ω × Ended) := do
  let b := b.notice S .terminating
  if b.engine.connection.state = .connected then
    let b := b.wrote S (← Session.quit b.session (some quitReason) b.buffers.write)
    let (result, b) ← cycle S placeholder b 0
    match result with
    | .error e => return (b, .failed e)
    | .ok _ => return (b, .stopped)
  else return (b, .stopped)

def afterCycle (outcome : Outcome) : Except Panic (Bot ω × Option Ended) := do
  let b := if outcome.lookupFailed then b.onLookupFailed S else b
  let b ← (if outcome.connected then onConnected S b else .ok b : Except Panic (Bot ω))
  let b ← process S b
  let b := if outcome.disconnected then b.onDisconnected S else b
  if outcome.stopRequested then
    let (b, ended) ← stop S placeholder b
    return (b, some ended)
  else return (b, none)

def step : Except Panic (Bot ω × Option Ended) := do
  let (result, b) ← cycle S placeholder b b.config.tuning.pollTimeout
  match result with
  | .error e => return (b, some (.failed e))
  | .ok outcome => afterCycle S placeholder b outcome

end

def create (config : Config) (engine : Engine ω) : Except Panic (Bot ω) := do
  let read ← Ring.create config.tuning.bufferSize
  let write ← Ring.create config.tuning.bufferSize
  let b : Bot ω := { config, engine, buffers := ⟨read, write⟩, session := .create config () }
  return b.notice S (.starting config.server.host config.server.port)

def run : Nat → Bot ω → Except Panic (Bot ω × Option Ended)
  | 0, b => return (b, none)
  | n + 1, b => do
    match ← step S placeholder b with
    | (b, some ended) => return (b, some ended)
    | (b, none) => run n b

variable {S placeholder} {config : Config} {C : Nat} {b b' : Bot ω} {s : Session Unit Unit} {c : Buffers}

structure Fit (config : Config) (C : Nat) (b : Bot ω) : Prop where
  session : b.session.Of config
  buffers : b.buffers.Hold C

theorem Fit.leaves (hl : Leaves b s c b') (hs : s.Of config) (hc : c.Hold C) : Fit config C b' := by
  refine ⟨?_, ?_⟩
  · rwa [hl.session_eq]
  · rwa [hl.buffers_eq]

theorem cycle_eq (h : Fit config C b) (timeout : Nat) : cycle S placeholder b timeout = lift (b.cycle S timeout) :=
  bind_lift (Engine.cycle_eq h.buffers _ _) fun _ _ => rfl

theorem onConnected_eq (h : Fit config C b) : onConnected S b = .ok (b.onConnected S) := by
  unfold onConnected IrcLink.Bot.onConnected
  cases b.engine.connection.peer? with
  | none =>
    dsimp only
    rw [Session.greet_eq b.session h.buffers.write_wellFormed]
    rfl
  | some peer =>
    have hw : (b.notice S (.connected peer.text)).buffers.write.WellFormed := h.buffers.write_wellFormed
    dsimp only
    rw [Session.greet_eq _ hw]
    rfl

theorem process_eq (h : Fit config C b) : process S b = lift (b.process S) :=
  bind_lift (Session.process_eq h.session h.buffers.read_wellFormed h.buffers.write_wellFormed) fun _ _ => rfl

theorem stop_eq (h : Fit config C b) : stop S placeholder b = lift (b.stop S) := by
  unfold stop IrcLink.Bot.stop
  dsimp only
  split
  · have hw : (b.notice S .terminating).buffers.write.WellFormed := h.buffers.write_wellFormed
    rw [Session.quit_eq _ _ hw]
    have hl := wrote_leaves (S := S) (b.notice S .terminating)
      ((b.notice S .terminating).session.quit (some quitReason) (b.notice S .terminating).buffers.write)
    have hfit := Fit.leaves hl ((h.session.send _).writeOutbox b.buffers.write).told
      ⟨h.buffers.read, IrcLink.Session.writeOutbox_holds _ h.buffers.write⟩
    refine bind_lift (cycle_eq hfit 0) fun p _ => ?_
    obtain ⟨result, b'⟩ := p
    cases result <;> rfl
  · rfl

theorem afterCycle_eq (h : Fit config C b) (o : Outcome) :
    afterCycle S placeholder b o = lift (b.afterCycle S o) := by
  unfold afterCycle IrcLink.Bot.afterCycle
  dsimp only
  have hl := lookupFailed_leaves (S := S) b o.lookupFailed
  have h₀ := Fit.leaves hl h.session h.buffers
  generalize (if o.lookupFailed then b.onLookupFailed S else b) = b₀ at h₀
  have hc : (if o.connected then onConnected S b₀ else .ok b₀) = .ok (if o.connected then b₀.onConnected S else b₀) := by
    split
    · exact onConnected_eq h₀
    · rfl
  have h₁ := Fit.leaves (greeted_leaves (S := S) b₀ o.connected) (h₀.session.greeted o.connected b₀.buffers)
    (IrcLink.Session.greeted_hold h₀.buffers o.connected b₀.session)
  rw [hc]
  generalize (if o.connected then b₀.onConnected S else b₀) = b₁ at h₁
  change process S b₁ >>= _ = _
  refine bind_lift (process_eq h₁) fun b₂ hp => ?_
  obtain ⟨s, c, ms, hs, hq⟩ := process_leaves hp
  have h₂ := Fit.leaves hq (h₁.session.heard (IrcLink.Session.process_heard hs)).told
    (IrcLink.Session.process_hold h₁.buffers hs)
  have h₃ := Fit.leaves (parted_leaves (S := S) b₂ o.disconnected) (h₂.session.parted o.disconnected b₂.buffers)
    (IrcLink.Session.parted_hold h₂.buffers o.disconnected b₂.session)
  split
  · exact bind_lift (stop_eq h₃) fun _ _ => rfl
  · rfl

theorem step_eq (h : Fit config C b) : step S placeholder b = lift (b.step S) := by
  refine bind_lift (cycle_eq h _) fun p hc => ?_
  obtain ⟨result, b'⟩ := p
  obtain ⟨now, world, -, he, hsession, -⟩ := cycle_ok hc
  cases result with
  | error e => rfl
  | ok o => exact afterCycle_eq ⟨hsession ▸ h.session, IrcLink.Engine.cycle_hold h.buffers he⟩ o

theorem create_eq (engine : Engine ω) : create S config engine = lift (IrcLink.Bot.create S config engine) := by
  rw [create, Ring.create_eq, IrcLink.Bot.create, Buffers.create]
  cases IrcLink.Ring.create config.tuning.bufferSize <;> rfl

theorem run_eq (h : Sound config b) (n : Nat) : run S placeholder n b = lift (IrcLink.Bot.run S n b) := by
  induction n generalizing b with
  | zero => rfl
  | succ n ih =>
    refine bind_lift (step_eq ⟨h.session, h.buffers⟩) fun p hs => ?_
    obtain ⟨b', ended⟩ := p
    cases ended with
    | some ended => rfl
    | none => exact ih (h.step hs)

end Bot

end Checked

namespace Bot

variable {ω : Type} {S : System ω} {config : Config}

theorem run_never_panics (hS : S.Bounded) (hv : config.validate = .ok ()) (engine : Engine ω) :
    (∃ b, create S config engine = .ok b ∧ Checked.Bot.create S config engine = .ok b ∧
      ∀ n, ∃ r, run S n b = .ok r ∧
        -- whatever is left in the place of a phase that was taken out
        ∀ placeholder, Checked.Bot.run S placeholder n b = .ok r) ∧
    -- it is gone when the call returns that left it
    (∀ placeholder now (c : Cycle ω), Checked.Cycle.nextAddress S placeholder now c = c.nextAddress S now) ∧
    ∀ placeholder (c : Cycle ω) s a rest deadline, c.connection.phase = .connecting s a rest deadline →
      Checked.Cycle.establish placeholder c = .ok (c.connect s a) := by
  refine ⟨?_, fun _ _ => Checked.Cycle.nextAddress_eq, fun _ _ _ _ _ _ => Checked.Cycle.establish_eq⟩
  obtain ⟨b, hb⟩ : ∃ b, create S config engine = .ok b := by
    rw [create, Buffers.create, Ring.create, if_neg (Config.validate_eq_ok_iff.mp hv).buffer]
    exact ⟨_, rfl⟩
  refine ⟨b, hb, Checked.lift_of_ok (Checked.Bot.create_eq engine) hb, fun n => ?_⟩
  obtain ⟨r, hr⟩ := run_isOk hS n b
  exact ⟨r, hr, fun placeholder => Checked.lift_of_ok (Checked.Bot.run_eq (create_sound hb) n) hr⟩

theorem run_never_panics_half_a_line_before :
    ∃ b, small.start halfALineBefore = .ok b ∧ ∀ n, ∃ r, run Script.system n b = .ok r ∧
      ∀ placeholder, Checked.Bot.run Script.system placeholder n b = .ok r := by
  obtain ⟨engine, he⟩ : ∃ engine, Engine.create Script.system small.linkSettings 0 { os := halfALineBefore } = .ok engine :=
    ⟨_, rfl⟩
  have hv : small.validate = .ok () := by decide +kernel
  obtain ⟨⟨b, hb, -, hrun⟩, -⟩ := run_never_panics Script.system_bounded hv engine
  refine ⟨b, ?_, hrun⟩
  rw [small.start, he]
  exact hb

end Bot

end IrcLink
