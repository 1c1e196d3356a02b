import IrcLink.Proofs.Bot.Isolation
import IrcLink.Proofs.Engine.Batch
import IrcLink.Proofs.Engine.Lossless
import IrcLink.Proofs.Engine.Timers

/-!
The timers of the main loop in the time that really passes. The loop reads its clock once a turn, before the wait, and sets
the timers by that reading; so they can run out early, by the time that the wait took and by no more.
-/

namespace IrcLink

namespace Event

def isNotice : Event → Bool
  | .notice _ => true
  | _ => false

variable {e : Event}

theorem waitTimeout_of_isNotice (h : e.isNotice = true) : e.waitTimeout? = none := by
  cases e <;> first | rfl | simp [isNotice] at h

theorem asked_of_isNotice (h : e.isNotice = true) : e.asked? = none := by
  cases e <;> first | rfl | simp [isNotice] at h

theorem dialled_of_isNotice (h : e.isNotice = true) : e.dialled? = none := by
  cases e <;> first | rfl | simp [isNotice] at h

end Event

/-- The same with a clock that only waits move, forward and by no more than they were given. -/
def System.steady {ω : Type} (S : System ω) : System (Nat × ω) where
  time := Prod.fst
  meanwhile next os :=
    let (deeds, inner) := S.meanwhile next os.2
    let time := match next with
      | some (.wait _ none) => max os.1 (S.time inner)
      | some (.wait _ (some limit)) => max os.1 (min (S.time inner) (os.1 + limit))
      | _ => os.1
    (deeds, time, inner)
  answer c os := ((S.answer c os.2).1, os.1, (S.answer c os.2).2)
  interruptions c os := S.interruptions c os.2
  interruptions_meanwhile c os := S.interruptions_meanwhile c os.2
  interruptions_wake c os := S.interruptions_wake c os.2
  interruptions_answer c os := S.interruptions_answer c os.2

theorem System.steady_is_steady {ω : Type} (S : System ω) : S.steady.Steady where
  answer _ _ := rfl
  meanwhile := by
    intro next os hnext
    simp only [steady]
    split
    · exact absurd rfl (hnext _ _)
    · exact absurd rfl (hnext _ _)
    · rfl
  onward := by
    intro capacity timeout os
    cases timeout with
    | none => exact Nat.le_max_left _ _
    | some limit => exact Nat.le_max_left _ _
  within := by
    intro capacity limit os
    simp only [steady]
    omega

namespace Bot

variable {ω : Type} {S : System ω} {config : Config} {b b' b'' : Bot ω}

structure Talks (S : System ω) (b b' : Bot ω) : Prop where
  config_eq : b'.config = b.config
  connection_eq : b'.engine.connection = b.engine.connection
  via : b.engine.world.Via S (·.isNotice = true) b'.engine.world

namespace Talks

theorem refl (b : Bot ω) : Talks S b b := ⟨rfl, rfl, .refl⟩

theorem trans (h : Talks S b b') (h' : Talks S b' b'') : Talks S b b'' :=
  ⟨h'.config_eq.trans h.config_eq, h'.connection_eq.trans h.connection_eq, h.via.trans h'.via⟩

end Talks

theorem notice_talks (b : Bot ω) (n : Notice) : Talks S b (b.notice S n) := ⟨rfl, rfl, World.Via.refl.record rfl rfl⟩

theorem tell_talks (b : Bot ω) : Talks S b (b.tell S) := by
  have all (ns : List Notice) (b : Bot ω) : Talks S b (ns.foldl (notice S) b) := by
    induction ns generalizing b with
    | nil => exact .refl b
    | cons n ns ih => exact (notice_talks b n).trans (ih _)
  obtain ⟨hconfig, hconnection, hv⟩ := all b.session.ctx.notices { b with session := b.session.told }
  exact ⟨hconfig, hconnection, hv⟩

theorem wrote_talks (b : Bot ω) (r : Session Unit Unit × Ring) : Talks S b (b.wrote S r) := by
  obtain ⟨hconfig, hconnection, hv⟩ :=
    tell_talks (S := S) { b with session := r.1, buffers := { b.buffers with write := r.2 } }
  exact ⟨hconfig, hconnection, hv⟩

theorem onConnected_talks (b : Bot ω) : Talks S b (b.onConnected S) := by
  unfold onConnected
  dsimp only
  split
  · rename_i peer _
    exact (notice_talks b _).trans (wrote_talks (b.notice S (.connected peer.text)) _)
  · exact wrote_talks b _

theorem process_talks (h : b.process S = .ok b') : Talks S b b' := by
  obtain ⟨⟨s, c, ms⟩, -, h⟩ := Fault.bind_eq_ok.mp h
  obtain rfl := Except.ok.inj h
  obtain ⟨hconfig, hconnection, hv⟩ := tell_talks (S := S) { b with session := s, buffers := c }
  exact ⟨hconfig, hconnection, hv⟩

theorem onDisconnected_talks (b : Bot ω) : Talks S b (b.onDisconnected S) := ⟨rfl, rfl, World.Via.refl.record rfl rfl⟩

theorem stop_talks {ended : Ended} (h : b.stop S = .ok (b', ended)) :
    ∃ b₁, Talks S b b₁ ∧ (b' = b₁ ∨ b.engine.connection.state = .connected ∧ ∃ result, b₁.cycle S 0 = .ok (result, b')) := by
  have hn := notice_talks (S := S) b .terminating
  unfold stop at h
  dsimp only at h
  split at h
  · rename_i hs
    obtain ⟨⟨result, b₂⟩, hc, h⟩ := Fault.bind_eq_ok.mp h
    have hb : b₂ = b' := by cases result <;> exact (Prod.mk.inj (Except.ok.inj h)).1
    subst hb
    exact ⟨_, hn.trans (wrote_talks (b.notice S .terminating) _), .inr ⟨hs, result, hc⟩⟩
  · obtain ⟨rfl, -⟩ := Prod.mk.inj (Except.ok.inj h)
    exact ⟨_, hn, .inl rfl⟩

theorem afterCycle_talks {o : Outcome} {r : Bot ω × Option Ended} (h : b.afterCycle S o = .ok r) :
    ∃ b₁, Talks S b b₁ ∧
      (r.1 = b₁ ∨ r.2 ≠ none ∧ b.engine.connection.state = .connected ∧ ∃ result, b₁.cycle S 0 = .ok (result, r.1)) := by
  obtain ⟨b₃, hp, h⟩ := Fault.bind_eq_ok.mp h
  have h₁ : Talks S b (if o.lookupFailed then b.onLookupFailed S else b) := by
    split
    · exact notice_talks b _
    · exact .refl b
  generalize (if o.lookupFailed then b.onLookupFailed S else b) = b₁ at hp h₁
  have h₂ : Talks S b₁ (if o.connected then b₁.onConnected S else b₁) := by
    split
    · exact onConnected_talks b₁
    · exact .refl b₁
  have h₄ : Talks S b₃ (if o.disconnected then b₃.onDisconnected S else b₃) := by
    split
    · exact onDisconnected_talks b₃
    · exact .refl b₃
  have hs := ((h₁.trans h₂).trans (process_talks hp)).trans h₄
  generalize (if o.disconnected then b₃.onDisconnected S else b₃) = b₄ at h hs
  cases hstop : o.stopRequested with
  | false =>
    rw [hstop] at h
    obtain rfl := Except.ok.inj h
    exact ⟨b₄, hs, .inl rfl⟩
  | true =>
    rw [hstop] at h
    obtain ⟨⟨b₅, ended⟩, hb, h⟩ := Fault.bind_eq_ok.mp h
    obtain rfl := Except.ok.inj h
    obtain ⟨b₆, hs', rfl | ⟨hstate, hcycle⟩⟩ := stop_talks hb
    · exact ⟨b₅, hs.trans hs', .inl rfl⟩
    · rw [hs.connection_eq] at hstate
      exact ⟨b₆, hs.trans hs', .inr ⟨nofun, hstate, hcycle⟩⟩

theorem step_talks {r : Bot ω × Option Ended} (h : b.step S = .ok r) :
    ∃ result b₁ b₂, b.cycle S b.config.tuning.pollTimeout = .ok (result, b₁) ∧ Talks S b₁ b₂ ∧
      (r.1 = b₂ ∨ r.2 ≠ none ∧ b₁.engine.connection.state = .connected ∧ ∃ result, b₂.cycle S 0 = .ok (result, r.1)) := by
  obtain ⟨result, b₁, hc, h⟩ := step_ok h
  cases result with
  | error e =>
    obtain rfl := h
    exact ⟨_, b₁, b₁, hc, .refl b₁, .inl rfl⟩
  | ok o =>
    obtain ⟨b₂, hs, hr⟩ := afterCycle_talks h
    exact ⟨_, b₁, b₂, hc, hs, hr⟩

def idle (b : Bot ω) : Cycle ω := (Engine.Point.idle b.engine b.buffers).cycle

open IrcLink.Cycle

theorem Talks.lasts (hS : S.Steady) (h : Talks S b b') : b.engine.world.Lasts S 0 b'.engine.world :=
  h.via.lasts hS fun _ => Event.waitTimeout_of_isNotice

theorem Talks.rests {now : Nat} (h : Talks S b b') : Rests now b.idle b'.idle := by
  refine .of_only ?_ ?_ (h.via.only.mono fun _ => Event.asked_of_isNotice)
  · exact congrArg Connection.settings h.connection_eq
  · exact congrArg Connection.phase h.connection_eq

theorem Talks.prompt {slack : Nat} (h : Talks S b b') (hp : Prompt slack b.idle) : Prompt slack b'.idle := by
  refine hp.of_only ?_ ?_ (h.via.only.mono fun _ => Event.dialled_of_isNotice)
  · exact congrArg Connection.settings h.connection_eq
  · exact congrArg Connection.phase h.connection_eq

section

variable {timeout : Nat} {result : Except Engine.WaitError Outcome}

theorem cycle_lasts (hS : S.Steady) (h : b.cycle S timeout = .ok (result, b')) :
    b.engine.world.Lasts S timeout b'.engine.world := by
  obtain ⟨now, world, hn, hc, -, -⟩ := cycle_ok h
  obtain ⟨-, rfl⟩ := Prod.mk.inj hn
  exact ((World.now_lasts hS b.engine.world).trans (Engine.cycle_lasts hS hc)).mono (by omega)

theorem cycle_rests (hS : S.Steady) (h : b.cycle S timeout = .ok (result, b')) :
    Rests (S.time b.engine.world.os) b.idle b'.idle := by
  obtain ⟨now, world, hn, hc, -, -⟩ := cycle_ok h
  -- the clock is read before the engine does anything, and to read it takes no time
  have htime := (World.now_lasts hS b.engine.world).time_eq
  obtain ⟨rfl, rfl⟩ := Prod.mk.inj hn
  rw [← htime]
  have hnow : Rests (S.time (b.engine.world.now S).2.os) b.idle
      (Engine.Point.idle { b.engine with world := (b.engine.world.now S).2 } b.buffers).cycle :=
    .of_only rfl rfl (.of_does_nil (World.now_does S b.engine.world))
  exact hnow.trans (Engine.cycle_rests hc)

theorem cycle_prompt (hS : S.Steady) (h : b.cycle S timeout = .ok (result, b')) (hp : Prompt timeout b.idle) :
    Prompt timeout b'.idle := by
  obtain ⟨now, world, hn, hc, -, -⟩ := cycle_ok h
  obtain ⟨rfl, rfl⟩ := Prod.mk.inj hn
  refine Engine.cycle_prompt hS rfl hc ?_
  exact hp.of_only rfl rfl (.of_does_nil (World.now_does S b.engine.world))

end

theorem step_lasts (hS : S.Steady) {r : Bot ω × Option Ended} (h : b.step S = .ok r) :
    b.engine.world.Lasts S b.config.tuning.pollTimeout r.1.engine.world := by
  obtain ⟨result, b₁, b₂, hc, hs, hr⟩ := step_talks h
  have hl := (cycle_lasts hS hc).trans (hs.lasts hS)
  obtain rfl | ⟨-, -, result', hc'⟩ := hr
  · exact hl
  · exact hl.trans (cycle_lasts hS hc')

theorem cycle_config {timeout : Nat} {result : Except Engine.WaitError Outcome}
    (h : b.cycle S timeout = .ok (result, b')) : b'.config = b.config := by
  obtain ⟨_, _, -, -, -, hconfig⟩ := cycle_ok h
  exact hconfig

theorem step_rests (hS : S.Steady) (h : b.step S = .ok (b', none)) :
    Rests (S.time b.engine.world.os) b.idle b'.idle ∧ b'.config = b.config := by
  obtain ⟨result, b₁, b₂, hc, hs, rfl | ⟨hended, -⟩⟩ := step_talks h
  · exact ⟨(cycle_rests hS hc).trans hs.rests, hs.config_eq.trans (cycle_config hc)⟩
  · exact absurd rfl hended

theorem step_prompt (hS : S.Steady) (h : b.step S = .ok (b', none)) (hp : Prompt b.config.tuning.pollTimeout b.idle) :
    Prompt b.config.tuning.pollTimeout b'.idle := by
  obtain ⟨result, b₁, b₂, hc, hs, rfl | ⟨hended, -⟩⟩ := step_talks h
  · exact hs.prompt (cycle_prompt hS hc hp)
  · exact absurd rfl hended

theorem Reached.prompt (hS : S.Steady) (h : Reached S config b) :
    b.config = config ∧ Prompt config.tuning.pollTimeout b.idle := by
  induction h with
  | @create settings now world engine b he hb =>
    obtain ⟨buffers, -, hb⟩ := Fault.bind_eq_ok.mp hb
    obtain rfl := Except.ok.inj hb
    refine ⟨rfl, .of_phase ?_⟩
    change ∀ s a rest deadline, engine.connection.phase ≠ .connecting s a rest deadline
    rw [Engine.create_connection he]
    nofun
  | @step b b' _ hs ih =>
    obtain ⟨hconfig, hp⟩ := ih
    subst hconfig
    exact ⟨(step_rests hS hs).2, step_prompt hS hs hp⟩

inductive Settles (S : System ω) (b : Bot ω) : Nat → Cycle ω → Prop
  | settles {now : Nat} {w₀ w : World ω} {c₀ c : Cycle ω} {waited : Call.Waited} {events : List Readiness}
      (hn : b.engine.world.now S = (now, w₀))
      (hb : Cycle.beforeWait S now ⟨b.engine.connection, b.buffers, w₀, {}⟩ = .ok c₀)
      (hw : c₀.world.wait S c₀.connection.settings.eventCapacity
        (Engine.waitTimeout c₀.connection now (some b.config.tuning.pollTimeout)) = (waited, w))
      (hwaited : waited = .events events ∨ waited = .interrupted ∧ events = [])
      (hd : events.foldlM (Engine.dispatch S now) { c₀ with world := w } = .ok c) : Settles S b now c

/-- The connection has been at rest since a turn that began at the one time and ended at the other. In that turn it was
lost, or all addresses failed, or a lookup failed. -/
inductive Paused (S : System ω) (config : Config) : Nat → Nat → Bot ω → Prop
  | rests {b b' : Bot ω} {seg : Journal} (hb : Reached S config b) (h : b.step S = .ok (b', none))
      (hj : b'.engine.world.journal = b.engine.world.journal ++ seg) (hs : b'.engine.connection.state = .disconnected)
      (hnew : b.engine.connection.state = .disconnected → seg.asked ≠ []) :
      Paused S config (S.time b.engine.world.os) (S.time b'.engine.world.os) b'
  | stays {start stop : Nat} {b b' : Bot ω} {seg : Journal} (hp : Paused S config start stop b)
      (h : b.step S = .ok (b', none)) (hj : b'.engine.world.journal = b.engine.world.journal ++ seg)
      (hasked : seg.asked = []) : Paused S config start stop b'

theorem Paused.phase {start stop : Nat} (hS : S.Steady) (h : Paused S config start stop b) :
    b.config = config ∧
      b.engine.connection.phase = .disconnected (start + b.engine.connection.settings.retryDelay) ∧
      start ≤ stop ∧ stop ≤ start + config.tuning.pollTimeout := by
  induction h with
  | @rests b b' seg hb h hj hs hnew =>
    obtain ⟨hconfig, -⟩ := hb.prompt hS
    obtain ⟨hon, hin, -⟩ := step_lasts hS h
    rw [hconfig] at hin
    obtain ⟨⟨hsettings, seg', hj', hphase⟩, hconfig'⟩ := step_rests hS h
    obtain rfl : seg = seg' := List.append_cancel_left (hj.symm.trans hj')
    refine ⟨hconfig'.trans hconfig, ?_, hon, hin⟩
    obtain ⟨r, hr⟩ := Connection.state_eq_disconnected.mp hs
    obtain ⟨hkept, hnone⟩ | ⟨hrest, -⟩ := hphase
    · exact absurd hnone (hnew (Connection.state_eq_disconnected.mpr ⟨r, hkept.symm.trans hr⟩))
    · have hrest := hrest r hr
      have hsettings : b'.engine.connection.settings = b.engine.connection.settings := hsettings
      rw [hr, hrest, hsettings]
      rfl
  | @stays start stop b b' seg _ h hj hasked ih =>
    obtain ⟨hconfig, hphase, hle⟩ := ih
    obtain ⟨⟨hsettings, seg', hj', hphase'⟩, hconfig'⟩ := step_rests hS h
    obtain rfl : seg = seg' := List.append_cancel_left (hj.symm.trans hj')
    have hsettings : b'.engine.connection.settings = b.engine.connection.settings := hsettings
    refine ⟨hconfig'.trans hconfig, ?_, hle⟩
    obtain ⟨hkept, -⟩ | ⟨-, hdue⟩ := hphase'
    · rw [hsettings, ← hphase]
      exact hkept
    · exact absurd hasked (hdue _ hphase).2

theorem Settles.prompt (hS : S.Steady) (hb : Reached S config b) {now : Nat} {c : Cycle ω} (h : Settles S b now c) :
    now ≤ S.time c.world.os ∧ Prompt config.tuning.pollTimeout c := by
  obtain ⟨rfl, hp⟩ := hb.prompt hS
  cases h with
  | settles hn hb hw hwaited hd =>
    rename_i w₀ w c₀ waited events
    obtain ⟨rfl, rfl⟩ := Prod.mk.inj hn
    have hbefore := (beforeWait_work hb).path
    have hafter := Engine.dispatchAll_path hd
    obtain ⟨hon, -⟩ := Engine.wait_takes hS hw
    have h₀ := (hbefore.lasts hS).time_eq
    have h₁ := (hafter.lasts hS).time_eq
    constructor
    · change S.time (b.engine.world.now S).2.os ≤ _
      change S.time c₀.world.os = S.time (b.engine.world.now S).2.os at h₀
      change S.time c.world.os = S.time w.os at h₁
      omega
    · have hstart : Prompt b.config.tuning.pollTimeout
          (⟨b.engine.connection, b.buffers, (b.engine.world.now S).2, {}⟩ : Cycle ω) :=
        hp.of_only rfl rfl (.of_does_nil (World.now_does S b.engine.world))
      exact Engine.prompt_after_wait hS rfl hbefore hw hafter hstart

theorem Paused.due (hS : S.Steady) {start stop : Nat} (h : Paused S config start stop b) {r : Bot ω × Option Ended}
    (hr : b.step S = .ok r) {seg : Journal} (hj : r.1.engine.world.journal = b.engine.world.journal ++ seg)
    (hasked : seg.asked ≠ []) : start + b.engine.connection.settings.retryDelay ≤ S.time b.engine.world.os := by
  obtain ⟨-, hphase, -⟩ := h.phase hS
  -- the lookup is asked for in the first cycle of the turn: there is no second one without a connection
  obtain ⟨result, b₁, b₂, hc, hs, hend⟩ := step_talks hr
  obtain ⟨-, seg₁, hj₁, ⟨hkept, hnone⟩ | ⟨-, hdue⟩⟩ := cycle_rests hS hc
  · have hphase₁ : b₁.engine.connection.phase = _ := hkept.trans hphase
    obtain rfl | ⟨-, hstate, -⟩ := hend
    · have hrests : Rests (S.time b.engine.world.os) b₁.idle r.1.idle := hs.rests
      obtain ⟨-, seg₂, hj₂, ⟨-, hnone'⟩ | ⟨-, hdue⟩⟩ := hrests
      · have hall : b.engine.world.journal ++ seg = b.engine.world.journal ++ (seg₁ ++ seg₂) := by
          rw [← hj, ← List.append_assoc]
          exact hj₂.trans (congrArg (· ++ seg₂) hj₁)
        have hsame : seg = seg₁ ++ seg₂ := List.append_cancel_left hall
        have hnil : seg.asked = seg₁.asked ++ seg₂.asked := by
          rw [hsame]
          exact List.filterMap_append
        rw [hnil, hnone, hnone'] at hasked
        exact absurd rfl hasked
      · exact (hdue _ hphase₁).1
    · exact absurd hstate (Connection.state_ne_connected (by rw [hphase₁]; nofun))
  · exact (hdue _ hphase).1

/-- Neither timer is short by more than a wait may take. A candidate that is given up at its deadline has had the time that
is allowed to it, less so much; and a pause is counted from the beginning of the turn in which it came about. -/
theorem timers_run_from_the_turn (hS : S.Steady) (hb : Reached S config b) :
    (∀ now c s a rest deadline, Settles S b now c → c.connection.phase = .connecting s a rest deadline →
      deadline ≤ now → Engine.Abandons s c (c.afterEvents S now (World.startLookup S)) ∧
        ∃ t, c.world.journal.lastDial? = some (t, a) ∧
          t + c.connection.settings.connectTimeout ≤ S.time c.world.os + config.tuning.pollTimeout) ∧
    ∀ start stop r seg, Paused S config start stop b → b.step S = .ok r →
      r.1.engine.world.journal = b.engine.world.journal ++ seg → ∀ x ∈ seg, x.event.asked? ≠ none →
        start + b.engine.connection.settings.retryDelay ≤ x.time ∧
        stop + b.engine.connection.settings.retryDelay ≤ x.time + config.tuning.pollTimeout := by
  constructor
  · intro now c s a rest deadline h hphase hdue
    obtain ⟨hnow, hp⟩ := h.prompt hS hb
    obtain ⟨t, hdial, -, hle⟩ := hp s a rest deadline hphase
    refine ⟨?_, t, hdial, by omega⟩
    simp only [afterEvents, hphase, if_pos hdue]
    exact Engine.nextAddress_abandons hphase rfl (.refl _)
  · intro start stop r seg hpaused hr hj x hx hasked
    obtain ⟨hconfig, -, -, hstop⟩ := hpaused.phase hS
    have hne : seg.asked ≠ [] := fun hnil => hasked (List.filterMap_eq_nil_iff.mp hnil x hx)
    have hdue := hpaused.due hS hr hj hne
    obtain ⟨hle, -⟩ := (step_lasts hS hr).entry hj x hx
    exact ⟨by omega, by omega⟩

def hasty : Config where
  server := ⟨"irc.example.net", 6667⟩
  identity := ⟨["nick"], "name", "login"⟩
  tuning := { pollTimeout := 10, retryDelay := 5, connectTimeout := 5 }

def slowLookups : Script where
  upcoming := [{}]
  turns := [{}, { now := some 10, lookup := some none }, {},
    { now := some 20, lookup := some (some [Engine.testAddress 1]) }, {}]

def hasty.start (p : Script) : Except Fault (Bot (Nat × Script)) :=
  match Engine.create Script.system.steady hasty.linkSettings 0 { os := (0, p) } with
  | .ok e => create Script.system.steady hasty e
  | .error _ => .error .zeroCapacity

def hasty.tryOut (p : Script) (dialled : Nat) : Except Fault (List Nat) := do
  let S := Script.system.steady
  let b₀ ← start p
  let (b₁, ended₁) ← b₀.step S
  let (b₂, ended₂) ← b₁.step S
  let (b₃, ended₃) ← b₂.step S
  let (b₄, ended₄) ← b₃.step S
  let now := b₄.engine.world.now S
  let c ← Cycle.beforeWait S now.1 ⟨b₄.engine.connection, b₄.buffers, now.2, {}⟩
  let waited := c.world.wait S c.connection.settings.eventCapacity
    (Engine.waitTimeout c.connection now.1 (some b₄.config.tuning.pollTimeout))
  let seg : Journal := b₃.engine.world.journal.drop b₂.engine.world.journal.length
  if ended₁ = none ∧ ended₂ = none ∧ ended₃ = none ∧ ended₄ = none ∧ b₁.engine.connection.state = .resolving ∧
      b₂.engine.connection.state = .disconnected ∧ b₂.engine.connection.settings = hasty.linkSettings ∧
      waited.1 = .events [] ∧ c.connection.settings = hasty.linkSettings ∧
      c.connection.phase = .connecting 0 (Engine.testAddress 1) [] 15 ∧
      waited.2.journal.lastDial? = some (dialled, Engine.testAddress 1) then
    return [S.time b₁.engine.world.os, S.time b₂.engine.world.os] ++
      (seg.filterMap fun x => x.event.asked?.map fun _ => x.time) ++ [now.1, S.time waited.2.os]
  else throw .zeroCapacity

theorem hasty.tryOut_ok {p : Script} {dialled start stop asked now time : Nat}
    (h : tryOut p dialled = .ok [start, stop, asked, now, time]) :
    ∃ b b' c seg x r, Paused Script.system.steady hasty start stop b ∧ Reached Script.system.steady hasty b ∧
      b.engine.connection.settings = hasty.linkSettings ∧ b.step Script.system.steady = .ok r ∧
      r.1.engine.world.journal = b.engine.world.journal ++ seg ∧ x ∈ seg ∧ x.event.asked? ≠ none ∧ x.time = asked ∧
      Reached Script.system.steady hasty b' ∧ Settles Script.system.steady b' now c ∧
      c.connection.settings = hasty.linkSettings ∧ c.connection.phase = .connecting 0 (Engine.testAddress 1) [] 15 ∧
      c.world.journal.lastDial? = some (dialled, Engine.testAddress 1) ∧
      Script.system.steady.time c.world.os = time := by
  have hS := Script.system.steady_is_steady
  obtain ⟨b₀, hb₀, h⟩ := Fault.bind_eq_ok.mp h
  have hb₀ : Reached Script.system.steady hasty b₀ := by
    unfold hasty.start at hb₀
    split at hb₀
    · rename_i he
      exact .create he hb₀
    · exact absurd hb₀ nofun
  obtain ⟨⟨b₁, ended₁⟩, h₁, h⟩ := Fault.bind_eq_ok.mp h
  obtain ⟨⟨b₂, ended₂⟩, h₂, h⟩ := Fault.bind_eq_ok.mp h
  obtain ⟨⟨b₃, ended₃⟩, h₃, h⟩ := Fault.bind_eq_ok.mp h
  obtain ⟨⟨b₄, ended₄⟩, h₄, h⟩ := Fault.bind_eq_ok.mp h
  obtain ⟨c, hc, hr⟩ := Fault.bind_eq_ok.mp h
  dsimp only at hr
  split at hr
  · rename_i hall
    obtain ⟨hended₁, hended₂, hended₃, hended₄, hs₁, hs₂, hset₂, hw, hsetc, hphase, hdial⟩ := hall
    subst hended₁ hended₂ hended₃ hended₄
    have hb₁ := hb₀.step h₁
    have hb₂ := hb₁.step h₂
    obtain ⟨-, -, seg₂, hj₂, -⟩ := step_lasts hS h₂
    obtain ⟨-, -, seg₃, hj₃, -⟩ := step_lasts hS h₃
    have hp : Paused Script.system.steady hasty _ _ b₂ :=
      .rests hb₁ h₂ hj₂ hs₂ fun hs => absurd (hs₁.symm.trans hs) nofun
    have htimes := Except.ok.inj hr
    rw [List.append_assoc] at htimes
    change _ = [start, stop] ++ ([asked] ++ [now, time]) at htimes
    obtain ⟨hturn, hrest⟩ := List.append_inj htimes rfl
    obtain ⟨hasked, hlast⟩ := List.append_inj' hrest rfl
    obtain ⟨rfl, rfl⟩ := by simpa using hturn
    obtain ⟨rfl, htime⟩ := by simpa using hlast
    rw [hj₃, List.drop_left] at hasked
    obtain ⟨x, hx, hxa⟩ := List.mem_filterMap.mp (hasked ▸ List.mem_singleton_self asked)
    obtain ⟨l, hl, hxt⟩ := Option.map_eq_some_iff.mp hxa
    have hsettles : Settles Script.system.steady b₄ _ _ := .settles rfl hc (Prod.ext hw rfl) (.inl rfl) rfl
    exact ⟨b₂, b₄, _, seg₃, x, _, hp, hb₂, hset₂, h₃, hj₃, hx, by rw [hl]; nofun, hxt, (hb₂.step h₃).step h₄, hsettles,
      hsetc, hphase, hdial, htime⟩
  · exact absurd hr nofun

theorem hasty.slowLookups_times : tryOut slowLookups 20 = .ok [0, 10, 10, 20, 20] := by decide +kernel

theorem timers_run_from_the_turn_of_slow_lookups :
    Script.system.steady.Steady ∧
    (∃ b r seg x, Reached Script.system.steady hasty b ∧ Paused Script.system.steady hasty 0 10 b ∧
      b.step Script.system.steady = .ok r ∧ r.1.engine.world.journal = b.engine.world.journal ++ seg ∧ x ∈ seg ∧
      x.event.asked? ≠ none ∧ 5 ≤ x.time ∧ 15 ≤ x.time + 10) ∧
    ∃ b c, Reached Script.system.steady hasty b ∧ Settles Script.system.steady b 20 c ∧
      Engine.Abandons 0 c (c.afterEvents Script.system.steady 20 (World.startLookup Script.system.steady)) ∧
      ∃ t, c.world.journal.lastDial? = some (t, Engine.testAddress 1) ∧
        t + 5 ≤ Script.system.steady.time c.world.os + 10 := by
  have hS := Script.system.steady_is_steady
  obtain ⟨b, b', c, seg, x, r, hp, hb, hset, hr, hj, hx, hasked, -, hb', hc, hsetc, hphase, -⟩ :=
    hasty.tryOut_ok hasty.slowLookups_times
  obtain ⟨-, hpauses⟩ := timers_run_from_the_turn hS hb
  obtain ⟨hdeadlines, -⟩ := timers_run_from_the_turn hS hb'
  obtain ⟨hstart, hstop⟩ := hpauses _ _ r seg hp hr hj x hx hasked
  obtain ⟨habandons, t, hdial, hle⟩ := hdeadlines 20 c 0 _ _ _ hc hphase (by decide)
  rw [hset] at hstart hstop
  rw [hsetc] at hle
  exact ⟨hS, ⟨b, r, seg, x, hb, hp, hr, hj, hx, hasked, hstart, hstop⟩, b', c, hb', hc, habandons, t, hdial, hle⟩

theorem timers_run_out_early :
    hasty.validate = .ok () ∧ hasty.tuning.connectTimeout = 5 ∧ hasty.tuning.retryDelay = 5 ∧
    Script.system.steady.Steady ∧
    (∃ b c, Reached Script.system.steady hasty b ∧ c.connection.settings = hasty.linkSettings ∧
      Settles Script.system.steady b 20 c ∧ c.connection.phase = .connecting 0 (Engine.testAddress 1) [] 15 ∧
      c.world.journal.lastDial? = some (20, Engine.testAddress 1) ∧ Script.system.steady.time c.world.os = 20 ∧
      Engine.Abandons 0 c (c.afterEvents Script.system.steady 20 (World.startLookup Script.system.steady))) ∧
    ∃ b r seg x, Reached Script.system.steady hasty b ∧ b.engine.connection.settings = hasty.linkSettings ∧
      Paused Script.system.steady hasty 0 10 b ∧ b.step Script.system.steady = .ok r ∧
      r.1.engine.world.journal = b.engine.world.journal ++ seg ∧ x ∈ seg ∧ x.event.asked? ≠ none ∧ x.time = 10 := by
  obtain ⟨b, b', c, seg, x, r, hp, hb, hset, hr, hj, hx, hasked, hxt, hb', hc, hsetc, hphase, hdial, htime⟩ :=
    hasty.tryOut_ok hasty.slowLookups_times
  refine ⟨by decide +kernel, rfl, rfl, Script.system.steady_is_steady,
    ⟨b', c, hb', hsetc, hc, hphase, hdial, htime, ?_⟩, b, r, seg, x, hb, hset, hp, hr, hj, hx, hasked, hxt⟩
  have hdue : 15 ≤ 20 := by decide
  simp only [afterEvents, hphase, if_pos hdue]
  exact Engine.nextAddress_abandons hphase rfl (.refl _)

end Bot

end IrcLink
