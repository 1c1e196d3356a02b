import IrcLink.Proofs.Bot.Loop
import IrcLink.Proofs.Engine.SideBySide

/-!
Two main loops side by side. As long as both are connected and see the same, they send the same; when one of them loses
the connection or ends, so does the other.
-/

namespace IrcLink

namespace Bot

section

variable {ω : Type} {S : System ω} {b b' : Bot ω}

theorem now_hush {now : Nat} {w w' : World ω} (h : w.now S = (now, w')) : w.Hush w' := by
  have hd := World.now_does S w
  rw [h] at hd
  exact .of_does_nil hd

theorem cycle_sees {timeout : Nat} {result : Except Engine.WaitError Outcome}
    (h : b.cycle S timeout = .ok (result, b')) : b.engine.world.Sees b'.engine.world := by
  obtain ⟨now, world, hn, hc, -, -⟩ := cycle_ok h
  exact .after (now_hush hn).goes (Engine.cycle_sees hc)

theorem stop_goes {ended : Ended} (h : b.stop S = .ok (b', ended)) :
    b.engine.world.Goes b'.engine.world := by
  obtain ⟨-, -, hl⟩ | ⟨-, b₁, result, -, hl, hc⟩ := stop_ok h
  · exact hl.hush.goes
  · exact hl.hush.goes.trans (cycle_sees hc).goes

theorem afterCycle_goes {o : Outcome} {r : Bot ω × Option Ended}
    (h : b.afterCycle S o = .ok r) : b.engine.world.Goes r.1.engine.world := by
  obtain ⟨s, c, b₁, -, hl, ⟨-, rfl⟩ | ⟨-, b', ended, hs, rfl⟩⟩ := afterCycle_ok h
  · exact hl.hush.goes
  · exact hl.hush.goes.trans (stop_goes hs)

theorem rest_goes {result : Except Engine.WaitError Outcome} {r : Bot ω × Option Ended}
    (h : match result with
      | .error e => r = (b, some (.failed e))
      | .ok outcome => b.afterCycle S outcome = .ok r) : b.engine.world.Goes r.1.engine.world := by
  cases result with
  | error e =>
    obtain rfl : r = (b, some (.failed e)) := h
    exact .refl _
  | ok o => exact afterCycle_goes h

theorem step_sees {r : Bot ω × Option Ended} (h : b.step S = .ok r) : b.engine.world.Sees r.1.engine.world := by
  obtain ⟨result, b₁, hc, h⟩ := step_ok h
  exact (cycle_sees hc).before (rest_goes h)

inductive Serves (S : System ω) (s : Socket) : Bot ω × Option Ended → Bot ω × Option Ended → Prop
  | done (r : Bot ω × Option Ended) : Serves S s r r
  | turn {b : Bot ω} {peer : SocketAddress} {r r' : Bot ω × Option Ended}
      (hl : b.engine.connection.phase = .connected s peer) (h : b.step S = .ok r) (hr : Serves S s r r') :
      Serves S s (b, none) r'

theorem Serves.goes {s : Socket} {r r' : Bot ω × Option Ended} (h : Serves S s r r') :
    r.1.engine.world.Goes r'.1.engine.world := by
  induction h with
  | done r => exact .refl _
  | turn _ h _ ih => exact (step_sees h).goes.trans ih

theorem afterCycle_hush {o : Outcome} {r : Bot ω × Option Ended} (hu : b.engine.connection.state ≠ .connected)
    (h : b.afterCycle S o = .ok r) :
    b.engine.world.Hush r.1.engine.world ∧ r.1.engine.connection.state ≠ .connected := by
  obtain ⟨s, c, b₁, -, hl, hr⟩ := afterCycle_ok h
  have hu₁ : b₁.engine.connection.state ≠ .connected := by rwa [hl.connection_eq]
  obtain ⟨-, rfl⟩ | ⟨-, b', ended, hs, rfl⟩ := hr
  · exact ⟨hl.hush, hu₁⟩
  · obtain ⟨-, -, hl'⟩ | ⟨hc, -⟩ := stop_ok hs
    · refine ⟨hl.hush.trans hl'.hush, ?_⟩
      rwa [hl'.connection_eq]
    · exact absurd hc hu₁

end

section

variable {ω₁ ω₂ : Type} {S₁ : System ω₁} {S₂ : System ω₂} {s₁ s₂ : Socket} {b₁ b₁' : Bot ω₁} {b₂ b₂' : Bot ω₂}

structure Together (s₁ s₂ : Socket) (b₁ : Bot ω₁) (b₂ : Bot ω₂) : Prop where
  session_eq : b₁.session = b₂.session
  alike : Cycle.Alike (Engine.after {} b₁.engine b₁.buffers) (Engine.after {} b₂.engine b₂.buffers)
  link₁ : (Engine.after {} b₁.engine b₁.buffers).onLink s₁
  link₂ : (Engine.after {} b₂.engine b₂.buffers).onLink s₂

/-- After one turn of each: both are still connected, or neither goes on with its connection. -/
inductive Level (s₁ s₂ : Socket) : Bot ω₁ × Option Ended → Bot ω₂ × Option Ended → Prop
  | up {b₁ : Bot ω₁} {b₂ : Bot ω₂} (h : Together s₁ s₂ b₁ b₂) : Level s₁ s₂ (b₁, none) (b₂, none)
  | ended {r₁ : Bot ω₁ × Option Ended} {r₂ : Bot ω₂ × Option Ended}
      (h₁ : r₁.2 = none → r₁.1.engine.connection.state ≠ .connected)
      (h₂ : r₂.2 = none → r₂.1.engine.connection.state ≠ .connected) : Level s₁ s₂ r₁ r₂

theorem Leaves.onLink {ω : Type} {b b' : Bot ω} {o o' : Outcome} {s : Session Unit Unit} {c d : Buffers} {socket : Socket}
    (h : Leaves b s c b') (hl : (Engine.after o b.engine d).onLink socket) :
    (Engine.after o' b'.engine b'.buffers).onLink socket := by
  obtain ⟨peer, hp⟩ := hl
  refine ⟨peer, ?_⟩
  change b'.engine.connection.phase = .connected socket peer
  rw [h.connection_eq]
  exact hp

theorem Together.of_leaves {o₁ o₂ : Outcome} {c₁ c₂ : Buffers} {d₁ d₂ : Buffers} {s : Session Unit Unit}
    (ha : Cycle.Alike (Engine.after o₁ b₁.engine d₁) (Engine.after o₂ b₂.engine d₂))
    (hl₁ : (Engine.after o₁ b₁.engine d₁).onLink s₁) (hl₂ : (Engine.after o₂ b₂.engine d₂).onLink s₂)
    (h₁ : Leaves b₁ s c₁ b₁') (h₂ : Leaves b₂ s c₂ b₂') (hc : c₁.Alike c₂) : Together s₁ s₂ b₁' b₂' := by
  refine ⟨h₁.session_eq.trans h₂.session_eq.symm, ⟨?_, ?_, ?_, rfl, rfl, rfl⟩, h₁.onLink hl₁, h₂.onLink hl₂⟩
  · change b₁'.buffers.Alike b₂'.buffers
    rw [h₁.buffers_eq, h₂.buffers_eq]
    exact hc
  · change b₁'.engine.connection.flow = b₂'.engine.connection.flow
    rw [h₁.connection_eq, h₂.connection_eq]
    exact ha.flow_eq
  · change b₁'.engine.connection.writeInterest = b₂'.engine.connection.writeInterest
    rw [h₁.connection_eq, h₂.connection_eq]
    exact ha.interest_eq

theorem cycle_mirror {t₁ t₂ : Nat} {x₁ x₂ : Except Engine.WaitError Outcome} (h : Together s₁ s₂ b₁ b₂)
    (h₁ : b₁.cycle S₁ t₁ = .ok (x₁, b₁')) (h₂ : b₂.cycle S₂ t₂ = .ok (x₂, b₂')) :
    Mirror s₁ s₂ b₁.engine.world b₁'.engine.world b₂.engine.world b₂'.engine.world
      (Engine.Agree s₁ s₂ (x₁, b₁'.engine, b₁'.buffers) (x₂, b₂'.engine, b₂'.buffers)) := by
  obtain ⟨now₁, w₁, hn₁, hc₁, -, -⟩ := cycle_ok h₁
  obtain ⟨now₂, w₂, hn₂, hc₂, -, -⟩ := cycle_ok h₂
  exact .after_hush (now_hush hn₁) (now_hush hn₂)
    (Engine.cycle_mirror hc₁ hc₂ (h.alike.withWorld w₁ w₂) h.link₁ h.link₂)

theorem stop_mirror {ended₁ ended₂ : Ended} (h : Together s₁ s₂ b₁ b₂) (h₁ : b₁.stop S₁ = .ok (b₁', ended₁))
    (h₂ : b₂.stop S₂ = .ok (b₂', ended₂)) :
    Mirror s₁ s₂ b₁.engine.world b₁'.engine.world b₂.engine.world b₂'.engine.world True := by
  obtain ⟨peer₁, hp₁⟩ := h.link₁
  obtain ⟨peer₂, hp₂⟩ := h.link₂
  obtain ⟨hu, -⟩ | ⟨-, a₁, x₁, -, hl₁, hc₁⟩ := stop_ok h₁
  · exact absurd (Connection.state_eq_connected.mpr ⟨s₁, peer₁, hp₁⟩) hu
  obtain ⟨hu, -⟩ | ⟨-, a₂, x₂, -, hl₂, hc₂⟩ := stop_ok h₂
  · exact absurd (Connection.state_eq_connected.mpr ⟨s₂, peer₂, hp₂⟩) hu
  obtain ⟨hq, hw⟩ := Session.writeOutbox_alike (b₁.session.send (.quit (some quitReason))) h.alike.buffers.write
  have hs : (b₁.session.quit (some quitReason) b₁.buffers.write).1.told =
      (b₂.session.quit (some quitReason) b₂.buffers.write).1.told := by
    rw [← h.session_eq]
    exact congrArg Session.told hq
  rw [← hs, ← h.session_eq] at hl₂
  have ht : Together s₁ s₂ a₁ a₂ := .of_leaves h.alike h.link₁ h.link₂ hl₁ hl₂ ⟨h.alike.buffers.read, hw⟩
  exact .after_hush hl₁.hush hl₂.hush ((cycle_mirror ht hc₁ hc₂).imp fun _ => trivial)

theorem afterCycle_mirror {o₁ o₂ : Outcome} {r₁ : Bot ω₁ × Option Ended} {r₂ : Bot ω₂ × Option Ended}
    (hs : b₁.session = b₂.session)
    (h : Cycle.Abreast s₁ s₂ (Engine.after o₁ b₁.engine b₁.buffers) (Engine.after o₂ b₂.engine b₂.buffers))
    (h₁ : b₁.afterCycle S₁ o₁ = .ok r₁) (h₂ : b₂.afterCycle S₂ o₂ = .ok r₂) :
    Mirror s₁ s₂ b₁.engine.world r₁.1.engine.world b₂.engine.world r₂.1.engine.world (Level s₁ s₂ r₁ r₂) := by
  cases h with
  | apart hu₁ hu₂ =>
    obtain ⟨hh₁, hu₁⟩ := afterCycle_hush hu₁ h₁
    obtain ⟨hh₂, hu₂⟩ := afterCycle_hush hu₂ h₂
    exact .of_hush hh₁ hh₂ (.ended (fun _ => hu₁) fun _ => hu₂)
  | up ha hl₁ hl₂ =>
    obtain ⟨t₁, d₁, a₁, hc₁, hd₁, hr₁⟩ := afterCycle_ok h₁
    obtain ⟨t₂, d₂, a₂, hc₂, hd₂, hr₂⟩ := afterCycle_ok h₂
    obtain ⟨d, hc, hda⟩ := Session.converse_alike ha.buffers hc₁
    have hconnected : o₁.connected = o₂.connected := ha.connected_eq
    have hdisconnected : o₁.disconnected = o₂.disconnected := ha.disconnected_eq
    have hstop : o₁.stopRequested = o₂.stopRequested := ha.stop_eq
    rw [hs, hconnected, hdisconnected] at hc
    obtain ⟨rfl, rfl⟩ := Prod.mk.inj (Except.ok.inj (hc.symm.trans hc₂))
    have ht : Together s₁ s₂ a₁ a₂ := .of_leaves ha hl₁ hl₂ hd₁ hd₂ hda
    obtain ⟨hs₁, rfl⟩ | ⟨hs₁, b₁', ended₁, hb₁, rfl⟩ := hr₁
    · obtain ⟨-, rfl⟩ | ⟨hs₂, -⟩ := hr₂
      · exact .of_hush hd₁.hush hd₂.hush (.up ht)
      · rw [← hstop, hs₁] at hs₂
        exact absurd hs₂ nofun
    · obtain ⟨hs₂, -⟩ | ⟨-, b₂', ended₂, hb₂, rfl⟩ := hr₂
      · rw [← hstop, hs₁] at hs₂
        exact absurd hs₂ nofun
      · exact .after_hush hd₁.hush hd₂.hush ((stop_mirror ht hb₁ hb₂).imp fun _ => .ended nofun nofun)

theorem step_mirror {r₁ : Bot ω₁ × Option Ended} {r₂ : Bot ω₂ × Option Ended} (h : Together s₁ s₂ b₁ b₂)
    (h₁ : b₁.step S₁ = .ok r₁) (h₂ : b₂.step S₂ = .ok r₂) :
    Mirror s₁ s₂ b₁.engine.world r₁.1.engine.world b₂.engine.world r₂.1.engine.world (Level s₁ s₂ r₁ r₂) := by
  obtain ⟨x₁, a₁, hc₁, hr₁⟩ := step_ok h₁
  obtain ⟨x₂, a₂, hc₂, hr₂⟩ := step_ok h₂
  obtain ⟨_, _, -, -, hs₁, -⟩ := cycle_ok hc₁
  obtain ⟨_, _, -, -, hs₂, -⟩ := cycle_ok hc₂
  have hs : a₁.session = a₂.session := by rw [hs₁, hs₂, h.session_eq]
  refine (cycle_mirror h hc₁ hc₂).trans (rest_goes hr₁) (rest_goes hr₂) fun hagree => ?_
  cases hagree with
  | failed =>
    obtain rfl : r₁ = _ := hr₁
    obtain rfl : r₂ = _ := hr₂
    exact .of_hush (.refl _) (.refl _) (.ended nofun nofun)
  | done hab => exact afterCycle_mirror hs hab hr₁ hr₂

theorem serves_echo {r₁ r₁' : Bot ω₁ × Option Ended} {r₂ r₂' : Bot ω₂ × Option Ended} (h : Level s₁ s₂ r₁ r₂)
    (h₁ : Serves S₁ s₁ r₁ r₁') (h₂ : Serves S₂ s₂ r₂ r₂') :
    Echo s₁ s₂ r₁.1.engine.world r₁'.1.engine.world r₂.1.engine.world r₂'.1.engine.world := by
  induction h₁ generalizing r₂ with
  | done r₁ =>
    cases h₂ with
    | done => exact ⟨[], [], .refl _, .refl _, fun _ => rfl⟩
    | turn _ hs₂ hr₂ => exact .of_sees_right ((step_sees hs₂).before hr₂.goes)
  | turn hl₁ hs₁ hr₁ ih =>
    cases h₂ with
    | done => exact .of_sees_left ((step_sees hs₁).before hr₁.goes)
    | turn hl₂ hs₂ hr₂ =>
      cases h with
      | up ht => exact (step_mirror ht hs₁ hs₂).echo hr₁.goes hr₂.goes fun hlevel => ih hlevel hr₂
      | ended hu₁ _ => exact absurd (Connection.state_eq_connected.mpr ⟨_, _, hl₁⟩) (hu₁ rfl)

end

end Bot

end IrcLink
