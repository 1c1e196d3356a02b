import IrcLink.Proofs.Engine.Batch

/-!
What a cycle reports is what happened to its connection. The state is compared from one part of the cycle to the next: a
connection is made or lost in a part, or neither (`Takes`), and the flags of the outcome tell all the turns of the cycle, in
their order. So a caller that sees nothing but the outcomes always knows whether there is a connection.
-/

namespace IrcLink

inductive Turn where
  | made
  | lost
  deriving Repr, DecidableEq

def Connection.turn? (c c' : Connection) : Option Turn :=
  if c.state = .connected then if c'.state = .connected then none else some .lost
  else if c'.state = .connected then some .made else none

def Outcome.turns (o : Outcome) : List Turn :=
  (if o.connected then [.made] else []) ++ if o.disconnected then [.lost] else []

theorem Outcome.turns_count_lost (o : Outcome) : o.turns.count .lost = if o.disconnected then 1 else 0 := by
  unfold turns
  cases o.connected <;> cases o.disconnected <;> rfl

theorem Outcome.turns_count_made (o : Outcome) : o.turns.count .made = if o.connected then 1 else 0 := by
  unfold turns
  cases o.connected <;> cases o.disconnected <;> rfl

namespace Cycle

open Relation

variable {ω : Type} {S : System ω} {now n : Nat} {c c' : Cycle ω} {s : Socket} {linked : Prop} {b : Buffers}

inductive Takes (c c' : Cycle ω) : Option Turn → Prop
  | none (hs : c'.connection.state = .connected ↔ c.connection.state = .connected)
      (hc : c'.outcome.connected = c.outcome.connected) (hd : c'.outcome.disconnected = c.outcome.disconnected)
      (hl : c'.connection.stats.losses = c.connection.stats.losses) : Takes c c' none
  | made (hs : c.connection.state = .connecting) (hs' : c'.connection.state = .connected)
      (hc : c'.outcome.connected = true) (hd : c'.outcome.disconnected = c.outcome.disconnected)
      (hl : c'.connection.stats.losses = c.connection.stats.losses) : Takes c c' (some .made)
  | lost (hs : c.connection.state = .connected) (hs' : c'.connection.state = .disconnected)
      (hc : c'.outcome.connected = c.outcome.connected) (hd : c'.outcome.disconnected = true)
      (hl : c'.connection.stats.losses = c.connection.stats.losses + 1) : Takes c c' (some .lost)

namespace Takes

theorem turn_eq {turn : Option Turn} (h : Takes c c' turn) : c.connection.turn? c'.connection = turn := by
  cases h with
  | none hs => by_cases h : c.connection.state = .connected <;> simp [Connection.turn?, hs, h]
  | made hs hs' => simp [Connection.turn?, hs, hs']
  | lost hs hs' => simp [Connection.turn?, hs, hs']

theorem of_world {turn : Option Turn} {world : World ω} (h : Takes { c with world } c' turn) : Takes c c' turn := by
  cases h with
  | none hs hc hd hl => exact .none hs hc hd hl
  | made hs hs' hc hd hl => exact .made hs hs' hc hd hl
  | lost hs hs' hc hd hl => exact .lost hs hs' hc hd hl

theorem of_unmade (hu : c.connection.state ≠ .connected) (h : Engine.Unmade c c') : Takes c c' Option.none :=
  .none (iff_of_false h.unlinked hu) h.connected_eq h.disconnected_eq h.losses_eq

theorem of_staysOrLoses (hs : c.connection.state = .connected) (h : StaysOrLoses S now s c c') :
    ∃ turn, Takes c c' turn := by
  cases h with
  | stays h =>
    have hsame := Stage.state_eq_of_phase h.phase_eq
    exact ⟨_, .none (by rw [hsame]) (by rw [h.outcome_eq]) (by rw [h.outcome_eq]) h.losses_eq⟩
  | @loses c₁ h =>
    have hc : (c₁.lose S now s).outcome.connected = c.outcome.connected := by
      change c₁.outcome.connected = c.outcome.connected
      rw [h.outcome_eq]
    have hl : (c₁.lose S now s).connection.stats.losses = c.connection.stats.losses + 1 :=
      congrArg (· + 1) h.losses_eq
    exact ⟨_, .lost hs rfl hc rfl hl⟩

end Takes

theorem beforeWait_takes (h : c.beforeWait S now = .ok c') : ∃ turn, Takes c c' turn := by
  by_cases hs : c.connection.state = .connected
  · obtain ⟨s, peer, hphase⟩ := Connection.state_eq_connected.mp hs
    exact Takes.of_staysOrLoses hs (beforeWait_staysOrLoses hphase h)
  · obtain rfl := beforeWait_unlinked hs h
    exact ⟨_, .of_unmade hs (.refl hs)⟩

theorem afterEvents_takes (S : System ω) (now : Nat) (start : Cycle.Start ω) (c : Cycle ω) :
    Takes c (c.afterEvents S now start) none := by
  by_cases hs : c.connection.state = .connected
  · rw [Engine.afterEvents_of_connected hs]
    exact .none Iff.rfl rfl rfl rfl
  · exact .of_unmade hs (Engine.afterEvents_unlinked S now start hs).1

end Cycle

theorem Cycle.onEvent_takes {ω : Type} {S : System ω} {now : Nat} {c c' : Cycle ω} {e : Readiness}
    (h : c.onEvent S now e = .ok c') : ∃ turn, Cycle.Takes c c' turn := by
  by_cases hs : c.connection.state = .connected
  · obtain ⟨s, peer, hphase⟩ := Connection.state_eq_connected.mp hs
    rw [onEvent, hphase] at h
    exact Takes.of_staysOrLoses hs (onConnected_staysOrLoses h)
  · obtain hkept | ⟨hstate, s, peer, world, rfl⟩ := Engine.onEvent_cases hs h
    · exact ⟨_, .of_unmade hs hkept⟩
    · exact ⟨_, .made hstate rfl rfl rfl rfl⟩

namespace Engine

open Relation IrcLink.Cycle

variable {ω : Type} {S : System ω} {now n : Nat} {c c' : Cycle ω} {linked : Prop} {b : Buffers} {ts : List Turn}

theorem onCompletion_takes (S : System ω) (now : Nat) (c : Cycle ω) : ∃ turn, Takes c (onCompletion S now c) turn := by
  by_cases hphase : c.connection.phase = .resolving
  · have hu : c.connection.state ≠ .connected := by simp [Connection.state, hphase]
    exact ⟨_, .of_unmade hu (onCompletion_unmade hu)⟩
  · obtain ⟨world, stop, hc⟩ := onCompletion_of_phase S now hphase
    rw [hc]
    exact ⟨_, .none Iff.rfl rfl rfl rfl⟩

theorem dispatch_takes {e : Readiness} (h : dispatch S now c e = .ok c') : ∃ turn, Takes c c' turn := by
  unfold dispatch at h
  split at h
  · obtain ⟨turn, ht⟩ := onEvent_takes h
    exact ⟨turn, ht.of_world⟩
  · split at h
    · obtain rfl := Except.ok.inj h
      obtain ⟨turn, ht⟩ := onCompletion_takes S now { c with world := c.world.record S (.handled e) }
      exact ⟨turn, ht.of_world⟩
    · obtain rfl := Except.ok.inj h
      exact ⟨_, .none Iff.rfl rfl rfl rfl⟩

/-- So far the cycle has taken these turns, and has said so. -/
structure Told (n : Nat) (turns : List Turn) (c : Cycle ω) : Prop where
  turns_eq : c.outcome.turns = turns
  losses_eq : c.connection.stats.losses = n + turns.count .lost

theorem Told.takes (hc : Told n ts c) (hstage : Stage linked b c) {turn : Option Turn} (h : Takes c c' turn) :
    Told n (ts ++ turn.toList) c' := by
  obtain ⟨rfl, hl⟩ := hc
  cases h with
  | none _ hc' hd' hl' =>
    refine ⟨?_, by simpa [hl'] using hl⟩
    simp [Outcome.turns, hc', hd']
  | made hs hs' hc' hd' hl' =>
    refine ⟨?_, by simpa [hl'] using hl⟩
    cases hstage with
    | unlinked _ _ hc hd => simp [Outcome.turns, hc, hd, hc', hd']
    | up _ hu => simp [hs] at hu
    | down _ hu => simp [hs] at hu
  | lost hs hs' hc' hd' hl' =>
    refine ⟨?_, by simp [hl', hl, Nat.add_assoc]⟩
    cases hstage with
    | unlinked _ hu => exact absurd hs hu
    | up _ _ hd => simp [Outcome.turns, hd, hc', hd']
    | down _ hu => simp [hs] at hu

def turnsOf (S : System ω) (now : Nat) (c : Cycle ω) : List Readiness → List Turn
  | [] => (c.connection.turn? (c.afterEvents S now (World.startLookup S)).connection).toList
  | e :: left =>
    match dispatch S now c e with
    | .ok c' => (c.connection.turn? c'.connection).toList ++ turnsOf S now c' left
    | .error _ => []

theorem turnsOf_told {events : List Readiness} (hstage : Stage linked b c) (hc : Told n ts c)
    (hd : events.foldlM (dispatch S now) c = .ok c') :
    Told n (ts ++ turnsOf S now c events) (c'.afterEvents S now (World.startLookup S)) := by
  induction events generalizing c ts with
  | nil =>
    obtain rfl := Except.ok.inj hd
    have ht := afterEvents_takes S now (World.startLookup S) c
    rw [turnsOf, ht.turn_eq]
    exact hc.takes hstage ht
  | cons e left ih =>
    rw [List.foldlM_cons] at hd
    obtain ⟨c₁, h₁, hd⟩ := Fault.bind_eq_ok.mp hd
    obtain ⟨turn, ht⟩ := dispatch_takes h₁
    rw [turnsOf, h₁, ← List.append_assoc, ht.turn_eq]
    exact ih (dispatch_stage hstage h₁) (hc.takes hstage ht) hd

/-- The turns of a cycle, read off the states that its connection has after each of its parts. -/
def turns (S : System ω) (e : Engine ω) (b : Buffers) (now : Nat) (timeout : Option Nat) : List Turn :=
  match Cycle.beforeWait S now ⟨e.connection, b, e.world, {}⟩ with
  | .error _ => []
  | .ok c => (e.connection.turn? c.connection).toList ++
    match c.world.wait S c.connection.settings.eventCapacity (waitTimeout c.connection now timeout) with
    | (.failed _, _) => []
    | (.interrupted, world) => turnsOf S now { c with world } []
    | (.events ready, world) => turnsOf S now { c with world } ready

theorem cycle_told {e e' : Engine ω} {b' : Buffers} {timeout : Option Nat} {o : Outcome}
    (h : e.cycle S b now timeout = .ok (.ok o, e', b')) :
    Told e.connection.stats.losses (e.turns S b now timeout) ⟨e'.connection, b', e'.world, o⟩ := by
  obtain ⟨c, hc, h⟩ := Fault.bind_eq_ok.mp h
  obtain ⟨waited, world, hw, ha⟩ := attend_ok h
  have hstart : Told e.connection.stats.losses [] ⟨e.connection, b, e.world, {}⟩ := ⟨rfl, rfl⟩
  have hstage : Stage (e.connection.state = .connected) b ⟨e.connection, b, e.world, {}⟩ :=
    Stage.start ⟨e.connection, b, e.world, {}⟩ rfl
  obtain ⟨turn, ht⟩ := beforeWait_takes hc
  obtain ⟨hturns, hlosses⟩ := hstart.takes hstage ht
  have hwaited : Told e.connection.stats.losses turn.toList { c with world } := ⟨hturns, hlosses⟩
  have hstage' := (hstage.beforeWait hc).withWorld world
  rw [turns, hc]
  dsimp only
  rw [hw, ht.turn_eq]
  cases ha with
  | interrupted => exact turnsOf_told hstage' hwaited rfl
  | events hd => exact turnsOf_told hstage' hwaited hd

/-- The candidate of the one cycle is the peer of the other: in between it was found to have no pending error and a peer, and its
socket is watched for reading from then on. -/
def Confirms (c c' : Cycle ω) : Prop :=
  ∃ e s a rest deadline, c.connection.phase = .connecting s a rest deadline ∧ c'.connection.phase = .connected s a ∧
    c.world.Does [.handled e, .call (.takeError s) (.ok none), .call (.peerAddress s) .known,
      .call (.reregister s socketToken .read) (.ok ())] c'.world

theorem hasConnected_does {w w' : World ω} {s : Socket} (h : hasConnected S w s = (some true, w')) :
    w.Does [.call (.takeError s) (.ok none), .call (.peerAddress s) .known] w' := by
  have ht := World.call_does S w (c := .takeError s) nofun
  unfold hasConnected at h
  split at h
  · simp at h
  · simp at h
  · rename_i w₁ he
    have hp := World.call_does S w₁ (c := .peerAddress s) nofun
    rw [he] at ht
    split at h
    · rename_i w₂ hpeer
      obtain ⟨-, rfl⟩ := Prod.mk.inj h
      rw [hpeer] at hp
      exact ht.trans hp
    · simp at h
    · simp at h

theorem dispatch_confirms {e : Readiness} (hu : c.connection.state ≠ .connected) (h : dispatch S now c e = .ok c')
    (hs : c'.connection.state = .connected) : Confirms c c' := by
  have hr : c.world.Does [.handled e] (c.world.record S (.handled e)) := World.record_does S c.world rfl
  obtain hk | ⟨hstate, -⟩ := dispatch_cases hu h
  · exact absurd hs hk.unlinked
  obtain ⟨s, a, rest, deadline, hphase⟩ := Connection.state_eq_connecting.mp hstate
  unfold dispatch at h
  split at h
  · simp only [onEvent, hphase] at h
    obtain rfl := Except.ok.inj h
    obtain ⟨world, -, hw | hw⟩ | ⟨asked, world, hh, hrereg, hw⟩ :=
      onConnecting_ways S now { c with world := c.world.record S (.handled e) } e s a
    · rw [hw] at hs
      exact absurd hs hu
    · rw [hw] at hs
      exact absurd hs (nextAddress_world_keepsOut S now hu world).unlinked
    · have hd := World.call_does S asked (c := .reregister s socketToken .read) (by simp)
      rw [hrereg] at hd
      rw [hw]
      exact ⟨e, s, a, rest, deadline, hphase, rfl, (hr.trans (hasConnected_does hh)).trans hd⟩
  · split at h
    · obtain rfl := Except.ok.inj h
      have hn : ({ c with world := c.world.record S (.handled e) } : Cycle ω).connection.phase ≠ .resolving := by
        simp [hphase]
      obtain ⟨world, stop, hc⟩ := onCompletion_of_phase S now hn
      rw [hc] at hs
      exact absurd hs hu
    · obtain rfl := Except.ok.inj h
      exact absurd hs hu

theorem cycle_confirms {e e' : Engine ω} {b' : Buffers} {timeout : Option Nat} {o : Outcome}
    (h : e.cycle S b now timeout = .ok (.ok o, e', b')) (hmade : o.connected = true) :
    e.connection.state = .connecting ∧ ∃ p q, ReflTransGen (Step S) (.idle e b) p ∧ Step S p q ∧
      ReflTransGen (Step S) q (.idle e' b') ∧ Confirms p.cycle q.cycle := by
  have hu : e.connection.state ≠ .connected := (cycle_turned h).not_linked hmade
  obtain ⟨c, hc, h⟩ := Fault.bind_eq_ok.mp h
  obtain rfl : c = ⟨e.connection, b, e.world, {}⟩ := beforeWait_unlinked hu hc
  obtain ⟨waited, world, hw, ha⟩ := attend_ok h
  cases ha with
  | interrupted =>
    rw [afterEvents_connected] at hmade
    exact absurd hmade nofun
  | @events ready c' hd =>
    rw [afterEvents_connected] at hmade
    have hwaited : (⟨e.connection, b, world, {}⟩ : Cycle ω).connection.state ≠ .connected := hu
    obtain ⟨before, event, left, c₀, c₁, rfl, hbefore, hu₀, hevent, hs₁⟩ := dispatchAll_makes hwaited rfl hd hmade
    have hconfirms : Confirms c₀ c₁ := dispatch_confirms hu₀ hevent hs₁
    have hafter : left.foldlM (dispatch S now) c₁ = .ok c' := by
      rw [List.foldlM_append, hbefore] at hd
      obtain ⟨c₂, h₂, hd⟩ := Fault.bind_eq_ok.mp hd
      obtain rfl := Except.ok.inj h₂
      rw [List.foldlM_cons, hevent] at hd
      exact hd
    refine ⟨?_, .handling now c₀ (event :: left), .handling now c₁ left, ?_, .handle hevent, ?_, hconfirms⟩
    · by_contra hn
      obtain ⟨_, s, a, rest, deadline, hphase, -⟩ := hconfirms
      have hn₀ := dispatchAll_not_connecting hn hbefore
      exact hn₀ (Connection.state_eq_connecting.mpr ⟨s, a, rest, deadline, hphase⟩)
    · exact .head (.begin timeout hc) (.head (.ready hw) (handle_steps hbefore (event :: left)))
    · exact (handleAll_steps hafter).tail (.finish now c')

inductive Polls (S : System ω) (first : Engine ω) : List Outcome → Engine ω → Prop
  | start : Polls S first [] first
  | poll {os : List Outcome} {e e' : Engine ω} {b b' : Buffers} {now : Nat} {timeout : Option Nat} {o : Outcome}
      (hp : Polls S first os e) (h : e.cycle S b now timeout = .ok (.ok o, e', b')) : Polls S first (os ++ [o]) e'

theorem Polls.count {first e : Engine ω} {os : List Outcome} (hp : Polls S first os e)
    (hfirst : first.connection.state ≠ .connected) :
    os.countP (·.connected) = os.countP (·.disconnected) + if e.connection.state = .connected then 1 else 0 := by
  induction hp with
  | start => simp [hfirst]
  | @poll os e e' b b' now timeout o _ h ih =>
    have hturned := (cycle_turned h).balance
    rw [List.countP_append, List.countP_append, ih, List.countP_singleton, List.countP_singleton]
    dsimp only at hturned
    omega

theorem outcomes_account_for_turns (S : System ω) :
    (∀ (e : Engine ω) b now timeout o e' b', e.cycle S b now timeout = .ok (.ok o, e', b') →
      (e'.connection.state = .connected ↔
        (e.connection.state = .connected ∨ o.connected = true) ∧ o.disconnected = false) ∧
      e'.connection.stats.losses = e.connection.stats.losses + (if o.disconnected then 1 else 0) ∧
      -- the flags tell every turn of the cycle, and a loss comes after what was made
      e.turns S b now timeout = (if o.connected then [.made] else []) ++ (if o.disconnected then [.lost] else []) ∧
      (o.connected = true → e.connection.state = .connecting ∧ ∃ p q, ReflTransGen (Step S) (.idle e b) p ∧ Step S p q ∧
        ReflTransGen (Step S) q (.idle e' b') ∧ Confirms p.cycle q.cycle)) ∧
    ∀ settings now w first os e, create S settings now w = .ok first → Polls S first os e →
      os.countP (·.connected) = os.countP (·.disconnected) + if e.connection.state = .connected then 1 else 0 := by
  constructor
  · intro e b now timeout o e' b' h
    obtain ⟨hturns, hlosses⟩ := cycle_told h
    refine ⟨(cycle_turned h).state_iff, ?_, hturns.symm, cycle_confirms h⟩
    rw [hlosses, ← hturns, Outcome.turns_count_lost]
  · intro settings now w first os e hfirst hp
    refine hp.count ?_
    rw [create_connection hfirst]
    nofun

def shortLived : Script where
  upcoming := [{}]
  turns := [{}, { lookup := some (some [testAddress 1]) }, { result := .events [ready, broken] }]

theorem outcomes_account_for_turns_of_short_lived :
    ∃ first os e b o e' b', create Script.system { host := "irc.example.net", port := 6667 } 0 { os := shortLived } = .ok first ∧
      Polls Script.system first os e ∧ e.cycle Script.system b 0 none = .ok (.ok o, e', b') ∧
      o = { connected := true, disconnected := true } ∧ e.connection.state = .connecting ∧
      e'.connection.state = .disconnected ∧ e'.connection.stats.losses = e.connection.stats.losses + 1 ∧
      e.turns Script.system b 0 none = [.made, .lost] ∧ (∃ p q, Step Script.system p q ∧ Confirms p.cycle q.cycle) ∧
      (os ++ [o]).countP (·.connected) = (os ++ [o]).countP (·.disconnected) := by
  have hS := Script.system_bounded
  obtain ⟨e, he⟩ : ∃ e, create Script.system { host := "irc.example.net", port := 6667 } 0 { os := shortLived } = .ok e :=
    ⟨_, rfl⟩
  obtain ⟨b, hb⟩ : ∃ b, Buffers.create 4 = .ok b := ⟨_, rfl⟩
  have heval : (do
      let (r₁, e₁, b) ← e.cycle Script.system b 0 none
      let (r₂, e₂, b) ← e₁.cycle Script.system b 0 none
      let (r₃, e₃, _) ← e₂.cycle Script.system b 0 none
      return (r₁.toOption, r₂.toOption, r₃.toOption, e₃.connection.state)) =
        .ok (some {}, some {}, some { connected := true, disconnected := true }, .disconnected) := by
    obtain rfl := Except.ok.inj he
    obtain rfl := Except.ok.inj hb
    decide +kernel
  obtain ⟨r₁, e₁, b₁, h₁⟩ := cycle_isOk hS e b 0 none
  obtain ⟨r₂, e₂, b₂, h₂⟩ := cycle_isOk hS e₁ b₁ 0 none
  obtain ⟨r₃, e₃, b₃, h₃⟩ := cycle_isOk hS e₂ b₂ 0 none
  simp only [h₁, h₂, h₃, bind, Except.bind, pure, Except.pure, Except.ok.injEq, Prod.mk.injEq] at heval
  have reported {r : Except WaitError Outcome} {o : Outcome} (h : r.toOption = some o) : r = .ok o := by
    cases r with
    | error _ => exact absurd h nofun
    | ok _ => exact congrArg Except.ok (Option.some.inj h)
  obtain ⟨ho₁, ho₂, ho₃, hstate⟩ := heval
  obtain rfl := reported ho₁
  obtain rfl := reported ho₂
  obtain rfl := reported ho₃
  obtain ⟨hcycle, hrun⟩ := outcomes_account_for_turns Script.system
  obtain ⟨-, hlosses, hturns, hmade⟩ := hcycle e₂ b₂ 0 none _ e₃ b₃ h₃
  obtain ⟨hconnecting, p, q, -, hstep, -, hconfirms⟩ := hmade rfl
  have hp : Polls Script.system e [{}, {}] e₂ := .poll (.poll .start h₁) h₂
  have hcount := hrun _ _ _ e _ e₃ he (hp.poll h₃)
  rw [hstate] at hcount
  exact ⟨e, _, e₂, b₂, _, e₃, b₃, he, hp, h₃, rfl, hconnecting, hstate, hlosses, hturns, ⟨p, q, hstep, hconfirms⟩, hcount⟩

end Engine

end IrcLink
