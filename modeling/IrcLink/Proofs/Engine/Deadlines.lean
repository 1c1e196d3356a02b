import IrcLink.Proofs.Engine.Batch
import IrcLink.Proofs.Engine.Timers
import IrcLink.Proofs.Engine.Wakeups

/-!
What is due by the clock is told by a deadline, all but the first dial after a lookup: that one is due at once, and no
deadline tells of it. So the wait, which goes by the deadline, would sleep over addresses that were found and not tried. It
never does, for the cycle that finds them also tries them.
-/

namespace IrcLink

namespace Connection

theorem deadline_eq_none {c : Connection} (h : c.state ≠ .resolved) :
    c.deadline? = none ↔ c.state = .resolving ∨ c.state = .connected := by
  cases hphase : c.phase with
  | resolved first rest =>
    rw [state, hphase] at h
    exact absurd rfl h
  | disconnected retryAt => simp [deadline?, state, hphase]
  | resolving => simp [deadline?, state, hphase]
  | connecting s a rest deadline => simp [deadline?, state, hphase]
  | connected s peer => simp [deadline?, state, hphase]

end Connection

namespace Cycle

variable {ω : Type} {S : System ω} {now : Nat} {c c' : Cycle ω}

theorem Tries.not_resolved {addresses : List SocketAddress} (h : Tries S now addresses c c') :
    c'.connection.state ≠ .resolved := by
  obtain hphase | ⟨_, _, _, _, hphase, -⟩ := h.ended
  all_goals simp [Connection.state, hphase]

theorem beforeWait_not_resolved (hs : c.connection.state ≠ .resolved) (h : c.beforeWait S now = .ok c') :
    c'.connection.state ≠ .resolved := by
  by_cases hup : c.connection.state = .connected
  · obtain ⟨s, peer, hphase⟩ := Connection.state_eq_connected.mp hup
    cases beforeWait_staysOrLoses hphase h with
    | stays h => rwa [Stage.state_eq_of_phase h.phase_eq]
    | loses => nofun
  · obtain rfl := beforeWait_unlinked hup h
    exact hs

theorem afterEvents_not_resolved (S : System ω) (now : Nat) (c : Cycle ω) :
    (c.afterEvents S now (World.startLookup S)).connection.state ≠ .resolved := by
  cases due_cases S now (World.startLookup S) c with
  | nothing h hs => rwa [h]
  | lookup hphase hdue =>
    obtain hphase' | hphase' := (afterEvents_asks (S := S) hphase hdue).ended
    all_goals simp [Connection.state, hphase']
  | address h hs =>
    rw [h]
    exact (nextAddress_tries S now (hs.imp_right And.left)).not_resolved

theorem afterEvents_of_deadline {start : Start ω} (hs : c.connection.state ≠ .resolved)
    (h : ∀ d, c.connection.deadline? = some d → now < d) : c.afterEvents S now start = c := by
  cases due_cases S now start c with
  | nothing h' => exact h'
  | lookup hphase hdue => exact absurd hdue (Nat.not_le.mpr (h _ (by rw [Connection.deadline?, hphase])))
  | address _ hs' =>
    obtain hs' | ⟨-, d, hd, hdue⟩ := hs'
    · exact absurd hs' hs
    · exact absurd hdue (Nat.not_le.mpr (h d hd))

end Cycle

namespace Engine

open IrcLink.Cycle

variable {ω : Type} {S : System ω} {first : Engine ω} {p q : Point ω} {c : Cycle ω} {now : Nat} {timeout : Option Nat}

/-- Addresses that were found and not tried are there only among the events of a wait. -/
def Point.Settled : Point ω → Prop
  | .idle e _ => e.connection.state ≠ .resolved
  | .waiting _ _ c => c.connection.state ≠ .resolved
  | .handling .. => True

theorem Step.settled (h : Step S p q) (hp : p.Settled) : q.Settled := by
  cases h with
  | begin timeout h => exact beforeWait_not_resolved (c := ⟨_, _, _, {}⟩) hp h
  | failed => exact hp
  | interrupted => trivial
  | ready => trivial
  | handle => trivial
  | finish now c => exact afterEvents_not_resolved S now c

theorem Visited.settled (hf : first.connection.state ≠ .resolved) (hp : Visited S first p) : p.Settled := by
  induction hp with
  | start => exact hf
  | step _ h ih => exact h.settled ih
  | use _ _ ih => exact ih

theorem waitTimeout_of_deadline {d : Nat} (h : c.connection.deadline? = some d) :
    ∃ u, waitTimeout c.connection now timeout = some u ∧ u ≤ d - now ∧ (timeout = none → u = d - now) ∧
      ∀ t, timeout = some t → u = min t (d - now) := by
  unfold waitTimeout
  rw [h]
  cases timeout with
  | none => exact ⟨_, rfl, Nat.le_refl _, fun _ => rfl, nofun⟩
  | some t =>
    refine ⟨_, rfl, Nat.min_le_right _ _, nofun, ?_⟩
    rintro _ ⟨⟩
    rfl

theorem waitTimeout_of_none (h : c.connection.deadline? = none) : waitTimeout c.connection now timeout = timeout := by
  unfold waitTimeout
  rw [h]

theorem Step.waits (h : Step S (.waiting now timeout c) q) :
    ∃ waited, c.world.Does [.call (.wait c.connection.settings.eventCapacity
      ((waitTimeout c.connection now timeout).map (min Call.longestWait))) waited] q.cycle.world := by
  cases h with
  | failed h => exact ⟨_, World.wait_does S h⟩
  | interrupted h => exact ⟨_, World.wait_does S h⟩
  | ready h => exact ⟨_, World.wait_does S h⟩

theorem waits_end_when_due {settings : LinkSettings} {start : Nat} {w : World ω} {e : Engine ω} {b : Buffers}
    (hfirst : create S settings start w = .ok first) (hp : Visited S first (.idle e b))
    (h : Step S (.idle e b) (.waiting now timeout c)) :
    c.connection.state ≠ .resolved ∧
    (c.connection.deadline? = none ↔ c.connection.state = .resolving ∨ c.connection.state = .connected) ∧
    -- the wait is no longer than asked for
    (∀ t, timeout = some t → ∃ u, waitTimeout c.connection now timeout = some u ∧ u ≤ t) ∧
    -- nor longer than until the deadline
    (∀ d, c.connection.deadline? = some d → ∃ u, waitTimeout c.connection now timeout = some u ∧ u ≤ d - now ∧
      (timeout = none → u = d - now) ∧ ∀ t, timeout = some t → u = min t (d - now)) ∧
    -- without a deadline nothing is due, however late it gets
    (c.connection.deadline? = none → waitTimeout c.connection now timeout = timeout ∧
      ∀ later start, c.afterEvents S later start = c) ∧
    (∀ later start, c.afterEvents S later start ≠ c →
      ∃ u, waitTimeout c.connection now timeout = some u ∧ now + u ≤ max now later) ∧
    ∀ q, Step S (.waiting now timeout c) q → ∃ waited, c.world.Does [.call (.wait c.connection.settings.eventCapacity
      ((waitTimeout c.connection now timeout).map (min Call.longestWait))) waited] q.cycle.world := by
  have hcreated : first.connection.state ≠ .resolved := by
    have hc : first.connection = .create settings start := create_connection hfirst
    rw [hc]
    nofun
  have hs : c.connection.state ≠ .resolved := (hp.step h).settled hcreated
  refine ⟨hs, Connection.deadline_eq_none hs, ?_, fun d => waitTimeout_of_deadline, ?_, ?_, fun q hq => hq.waits⟩
  · rintro t rfl
    exact waitTimeout_le c.connection now t
  · intro hnone
    refine ⟨waitTimeout_of_none hnone, ?_⟩
    intro later start
    exact afterEvents_of_deadline hs (by rw [hnone]; nofun)
  · intro later start hdue
    obtain ⟨d, hd, hle⟩ : ∃ d, c.connection.deadline? = some d ∧ d ≤ later := by
      by_contra hnone
      refine hdue (afterEvents_of_deadline hs fun d hd => ?_)
      exact Nat.lt_of_not_le fun hle => hnone ⟨d, hd, hle⟩
    obtain ⟨u, hu, hle', -⟩ : ∃ u, waitTimeout c.connection now timeout = some u ∧ u ≤ d - now ∧ _ :=
      waitTimeout_of_deadline hd
    exact ⟨u, hu, by omega⟩

def hungUpAtOnce : Script where
  upcoming := [{ reads := [.endOfStream] }]
  turns := [{}, { lookup := some (some [testAddress 1]) }, { result := .events [ready] }]

theorem waits_end_when_due_of_hungUpAtOnce :
    ∃ first e b c, create Script.system { host := "irc.example.net", port := 6667 } 0 { os := hungUpAtOnce } = .ok first ∧
      Visited Script.system first (.idle e b) ∧ e.connection.state = .connected ∧
      Step Script.system (.idle e b) (.waiting 100 none c) ∧ c.connection.deadline? = some 30100 ∧
      waitTimeout c.connection 100 none = some 30000 := by
  have hS := Script.system_bounded
  obtain ⟨e, he⟩ : ∃ e, create Script.system { host := "irc.example.net", port := 6667 } 0 { os := hungUpAtOnce } = .ok e :=
    ⟨_, rfl⟩
  obtain ⟨b, hb⟩ : ∃ b, Buffers.create 4 = .ok b := ⟨_, rfl⟩
  have heval : (do
      let (_, e, b) ← e.cycle Script.system b 0 none
      let (_, e, b) ← e.cycle Script.system b 0 none
      let (_, e, b) ← e.cycle Script.system b 0 none
      let c ← Cycle.beforeWait Script.system 100 ⟨e.connection, b, e.world, {}⟩
      return (e.connection.state, c.connection.deadline?)) = .ok (.connected, some 30100) := by
    obtain rfl := Except.ok.inj he
    obtain rfl := Except.ok.inj hb
    decide +kernel
  obtain ⟨_, e₁, b₁, h₁⟩ := cycle_isOk hS e b 0 none
  obtain ⟨_, e₂, b₂, h₂⟩ := cycle_isOk hS e₁ b₁ 0 none
  obtain ⟨_, e₃, b₃, h₃⟩ := cycle_isOk hS e₂ b₂ 0 none
  obtain ⟨c, hc⟩ := Cycle.beforeWait_isOk hS 100 ⟨e₃.connection, b₃, e₃.world, {}⟩
  simp only [h₁, h₂, h₃, hc, bind, Except.bind, pure, Except.pure, Except.ok.injEq, Prod.mk.injEq] at heval
  obtain ⟨hstate, hdeadline⟩ := heval
  obtain ⟨_, hread⟩ := (counted_of_create he hb).read
  have hp : Visited Script.system e (.idle e₃ b₃) :=
    (((Visited.start hread.wellFormed).steps (cycle_steps h₁)).steps (cycle_steps h₂)).steps (cycle_steps h₃)
  have hs := Step.begin (S := Script.system) none hc
  obtain ⟨-, -, -, hcut, -⟩ := waits_end_when_due he hp hs
  obtain ⟨u, hu, -, hwhole, -⟩ := hcut 30100 hdeadline
  obtain rfl := hwhole rfl
  exact ⟨e, e₃, b₃, c, he, hp, hstate, hs, hdeadline, hu⟩

end Engine

end IrcLink
