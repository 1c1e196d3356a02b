import IrcLink.Proofs.Engine.Timers
import IrcLink.Proofs.Engine.Wakeups

/-!
Lookups are paced. Whatever it is that fails, the engine then rests for as long as its settings say, and the next lookup is
asked for as soon as the clock is looked at after that. So there is such a pause at least between any two lookups, and no
failure can make the engine ask again and again.
-/

namespace IrcLink

namespace Cycle

variable {ω : Type} {S : System ω} {now : Nat} {c c' : Cycle ω}

theorem afterEvents_asked {retryAt : Nat} (hphase : c.connection.phase = .disconnected retryAt) (hdue : retryAt ≤ now) :
    c.world.Shows Event.asked? [⟨c.connection.settings.host, c.connection.settings.port⟩]
      (c.afterEvents S now (World.startLookup S)).world := by
  let l : Lookup := ⟨c.connection.settings.host, c.connection.settings.port⟩
  have hv : c.world.Via S (·.asked? = none) (World.startLookup S l c.world).2 :=
    World.startLookup_via S c.world l fun _ => rfl
  have hs : c.world.Shows Event.asked? [] (World.startLookup S l c.world).2 :=
    .of_only (fun _ => Event.asked_of_foreign) hv.only
  simp only [afterEvents, hphase, if_pos hdue]
  split
  · rename_i world h
    rw [h] at hs
    exact hs.trans (.record S world (.asked l none))
  · rename_i e world h
    rw [h] at hs
    exact hs.trans (.record S world (.asked l (some e)))

theorem Work.asks_nothing (h : Work S now c c') : c.world.Shows Event.asked? [] c'.world :=
  .of_only (fun _ => Event.asked_of_foreign) (h.calls.only.mono fun _ => Event.asked_of_isWork)

end Cycle

namespace Engine

open Relation IrcLink.Cycle

variable {ω : Type} {S : System ω} {first : Engine ω} {now t : Nat} {times : List Nat} {p q : Point ω} {c : Cycle ω}

theorem onCompletion_asks_nothing (S : System ω) (now : Nat) (c : Cycle ω) :
    c.world.Shows Event.asked? [] (onCompletion S now c).world := by
  obtain ⟨rs, world, stop, hd, -, heq⟩ := onCompletion_eq S now c
  have hs := World.Shows.of_does (fun _ => Event.asked_of_foreign) hd
  have hnone : (rs.map Event.collected).filterMap Event.asked? = [] := by simp [Event.asked?]
  rw [List.filterMap_cons_none rfl, hnone] at hs
  rwa [heq]

theorem dispatch_asks_nothing {e : Readiness} {c' : Cycle ω} (h : dispatch S now c e = .ok c') :
    c.world.Shows Event.asked? [] c'.world := by
  obtain ⟨-, h⟩ | ⟨-, rfl⟩ := dispatch_work h
  · exact h.asks_nothing
  · exact (World.Shows.record S c.world (.handled e)).trans (onCompletion_asks_nothing S now _)

/-- Here the engine does what is due by the clock, at this time or later. -/
def Point.reaches (t : Nat) : Point ω → Bool
  | .handling now _ [] => t ≤ now
  | _ => false

theorem Step.asks (h : Step S p q) :
    p.cycle.world.Shows Event.asked? [] q.cycle.world ∧
        (∀ r, p.cycle.connection.phase = .disconnected r → p.reaches r = false) ∨
      ∃ r, p.cycle.connection.phase = .disconnected r ∧ p.reaches r = true ∧ p.cycle.world.Shows Event.asked?
        [⟨p.cycle.connection.settings.host, p.cycle.connection.settings.port⟩] q.cycle.world := by
  have waits {c : Cycle ω} {timeout : Option Nat} {waited : Call.Waited} {world : World ω}
      (hwait : c.world.wait S c.connection.settings.eventCapacity timeout = (waited, world)) :
      c.world.Shows Event.asked? [] world := by
    exact .of_does (fun _ => Event.asked_of_foreign) (World.wait_does S hwait)
  cases h with
  | begin timeout h => exact .inl ⟨(beforeWait_work h).asks_nothing, fun _ _ => rfl⟩
  | failed h => exact .inl ⟨waits h, fun _ _ => rfl⟩
  | interrupted h => exact .inl ⟨waits h, fun _ _ => rfl⟩
  | ready h => exact .inl ⟨waits h, fun _ _ => rfl⟩
  | handle h => exact .inl ⟨dispatch_asks_nothing h, fun _ _ => rfl⟩
  | finish now c =>
    by_cases hdue : ∃ r, c.connection.phase = .disconnected r ∧ r ≤ now
    · obtain ⟨r, hphase, hle⟩ := hdue
      exact .inr ⟨r, hphase, decide_eq_true hle, afterEvents_asked hphase hle⟩
    · obtain h | h := afterEvents_cases S now c
      · exact .inl ⟨h.work.asks_nothing, fun r hr => decide_eq_false fun hle => hdue ⟨r, hr, hle⟩⟩
      · exact absurd h hdue

theorem StepAt.rests (h : StepAt S now p q) : Rests now p.cycle q.cycle := by
  obtain ⟨c, hc, hconnection, hworld⟩ | ⟨timeout, c, waited, rfl, hw, hconnection⟩ := h.cases
  · obtain ⟨hs, hphase⟩ := hc.rests
    rw [← hconnection] at hs
    rw [← hconnection, ← hworld] at hphase
    exact ⟨hs, hphase⟩
  · exact .of_only (by rw [hconnection]; rfl) (by rw [hconnection]; rfl) (.of_does (World.wait_does S hw) rfl)

theorem StepAt.reached (h : StepAt S now p q) (hp : p.reaches t = true) : t ≤ now := by
  unfold Point.reaches at hp
  split at hp
  · obtain rfl := by simpa [Point.time?] using h.time
    exact of_decide_eq_true hp
  · simp at hp

theorem StepAt.rests_on {r : Nat} (h : StepAt S now p q) (hphase : p.cycle.connection.phase = .disconnected r)
    (hr : p.reaches r = false) : q.cycle.connection.phase = .disconnected r := by
  obtain ⟨-, seg, hj, ⟨hkept, -⟩ | ⟨-, hmoved⟩⟩ := h.rests
  · exact hkept.trans hphase
  · obtain ⟨hshows, -⟩ | ⟨r', hphase', hr', -⟩ := h.step.asks
    · exact absurd (World.Shows.unique ⟨seg, hj, rfl⟩ hshows) (hmoved r hphase).2
    · obtain rfl := Phase.disconnected.inj (hphase.symm.trans hphase')
      rw [hr] at hr'
      exact absurd hr' nofun

theorem StepAt.falls {r : Nat} (h : StepAt S now p q) (hphase : q.cycle.connection.phase = .disconnected r)
    (hfall : p.cycle.connection.state = .disconnected → ¬p.cycle.world.Shows Event.asked? [] q.cycle.world) :
    r = now + p.cycle.connection.settings.retryDelay := by
  obtain ⟨-, seg, hj, ⟨hkept, hnone⟩ | ⟨hrest, -⟩⟩ := h.rests
  · have hp : p.cycle.connection.state = .disconnected :=
      Connection.state_eq_disconnected.mpr ⟨r, hkept.symm.trans hphase⟩
    exact absurd ⟨seg, hj, hnone⟩ (hfall hp)
  · exact hrest r hphase

theorem Visited.settings_eq (hp : Visited S first p) : p.cycle.connection.settings = first.connection.settings := by
  induction hp with
  | start => rfl
  | step _ h ih =>
    obtain ⟨now, h⟩ := h.timed
    exact h.rests.settings_eq.trans ih
  | use _ _ ih => exact ih

/-- The engine has failed in a cycle that was begun at this time, and has not come to the end of the pause after it. A lookup
that is refused is a failure too. -/
inductive Resting (S : System ω) (first : Engine ω) (t : Nat) : Point ω → Prop
  | falls {p q : Point ω} (hp : Visited S first p) (h : StepAt S t p q)
      (hq : q.cycle.connection.state = .disconnected)
      (hfall : p.cycle.connection.state = .disconnected → ¬p.cycle.world.Shows Event.asked? [] q.cycle.world) :
      Resting S first t q
  | step {p q : Point ω} (hp : Resting S first t p) (hnot : p.reaches (t + first.connection.settings.retryDelay) = false)
      (h : Step S p q) : Resting S first t q
  | use {e : Engine ω} {b b' : Buffers} (hp : Resting S first t (.idle e b)) (hb : b'.read.WellFormed) :
      Resting S first t (.idle e b')

theorem Resting.visited (hp : Resting S first t p) : Visited S first p := by
  induction hp with
  | falls hp h => exact hp.step h.step
  | step _ _ h ih => exact ih.step h
  | use _ hb ih => exact ih.use hb

theorem Resting.phase_eq (hp : Resting S first t p) :
    p.cycle.connection.phase = .disconnected (t + first.connection.settings.retryDelay) := by
  induction hp with
  | falls hp h hq hfall =>
    obtain ⟨r, hr⟩ := Connection.state_eq_disconnected.mp hq
    rw [hr, h.falls hr hfall, hp.settings_eq]
  | step _ hnot h ih =>
    obtain ⟨now, h⟩ := h.timed
    exact h.rests_on ih hnot
  | use _ _ ih => exact ih

inductive Onward (S : System ω) (first : Engine ω) : Nat → List Nat → Point ω → Prop
  | start {t : Nat} {b : Buffers} (hb : b.read.WellFormed) : Onward S first t [] (.idle first b)
  | step {t now : Nat} {times : List Nat} {p q : Point ω} {asked : List Lookup} (hp : Onward S first t times p)
      (hle : t ≤ now) (h : StepAt S now p q) (hasked : p.cycle.world.Shows Event.asked? asked q.cycle.world) :
      Onward S first now (times ++ asked.map fun _ => now) q
  | use {t : Nat} {times : List Nat} {e : Engine ω} {b b' : Buffers} (hp : Onward S first t times (.idle e b))
      (hb : b'.read.WellFormed) : Onward S first t times (.idle e b')

theorem Onward.visited (hp : Onward S first t times p) : Visited S first p := by
  induction hp with
  | start hb => exact .start hb
  | step _ _ h _ ih => exact ih.step h.step
  | use _ hb ih => exact ih.use hb

theorem Onward.step_on (hp : Onward S first t times p) (hle : t ≤ now) (h : StepAt S now p q)
    (hr : ∀ r, p.reaches r = false) : Onward S first now times q := by
  obtain ⟨hshows, -⟩ | ⟨r, -, hreached, -⟩ := h.step.asks
  · have hq := hp.step hle h hshows
    rwa [List.map_nil, List.append_nil] at hq
  · rw [hr r] at hreached
    exact absurd hreached nofun

structure Paced (delay t : Nat) (times : List Nat) (c : Cycle ω) : Prop where
  past : ∀ x ∈ times, x ≤ t
  rests : ∀ r, c.connection.phase = .disconnected r → ∀ x ∈ times, x + delay ≤ r
  apart : times.Pairwise fun x y => x + delay ≤ y

theorem StepAt.paced {asked : List Lookup} (h : StepAt S now p q) (hle : t ≤ now)
    (hasked : p.cycle.world.Shows Event.asked? asked q.cycle.world)
    (hp : Paced p.cycle.connection.settings.retryDelay t times p.cycle) :
    Paced p.cycle.connection.settings.retryDelay now (times ++ asked.map fun _ => now) q.cycle := by
  obtain ⟨hpast, hrests, hapart⟩ := hp
  have hpast' : ∀ x ∈ times, x ≤ now := fun x hx => Nat.le_trans (hpast x hx) hle
  obtain ⟨hnone, -⟩ | ⟨r, hphase, hreached, hone⟩ := h.step.asks
  · obtain rfl := hasked.unique hnone
    rw [List.map_nil, List.append_nil]
    refine ⟨hpast', ?_, hapart⟩
    intro r hr x hx
    obtain ⟨-, seg, hj, ⟨hkept, -⟩ | ⟨hrest, -⟩⟩ := h.rests
    · exact hrests r (hkept.symm.trans hr) x hx
    · rw [hrest r hr]
      exact Nat.add_le_add_right (hpast' x hx) _
  · obtain rfl := hasked.unique hone
    have hdue : r ≤ now := h.reached hreached
    rw [List.map_singleton]
    refine ⟨?_, ?_, ?_⟩
    · intro x hx
      obtain hx | hx := List.mem_append.mp hx
      · exact hpast' x hx
      · exact Nat.le_of_eq (List.mem_singleton.mp hx)
    · intro r' hr' x hx
      rw [h.falls hr' fun _ hnone => by simpa using hone.unique hnone]
      obtain hx | hx := List.mem_append.mp hx
      · exact Nat.add_le_add_right (hpast' x hx) _
      · exact Nat.add_le_add_right (Nat.le_of_eq (List.mem_singleton.mp hx)) _
    · refine List.pairwise_append.mpr ⟨hapart, List.pairwise_singleton _ _, ?_⟩
      intro x hx y hy
      rw [List.mem_singleton.mp hy]
      exact Nat.le_trans (hrests r hphase x hx) hdue

theorem Onward.paced (hp : Onward S first t times p) : Paced first.connection.settings.retryDelay t times p.cycle := by
  induction hp with
  | start => exact ⟨nofun, fun _ _ => nofun, .nil⟩
  | step hp hle h hasked ih =>
    rw [← hp.visited.settings_eq] at ih ⊢
    exact h.paced hle hasked ih
  | use _ _ ih => exact ⟨ih.past, ih.rests, ih.apart⟩

theorem lookups_are_paced :
    (∀ t p q, Resting S first t p → Step S p q → p.cycle.world.Shows Event.asked?
      (if p.reaches (t + first.connection.settings.retryDelay) then
        [⟨first.connection.settings.host, first.connection.settings.port⟩] else []) q.cycle.world) ∧
    ∀ t times p, Onward S first t times p →
      times.Pairwise fun x y => x + first.connection.settings.retryDelay ≤ y := by
  refine ⟨?_, fun _ _ _ hp => hp.paced.apart⟩
  intro t p q hp h
  obtain ⟨hshows, hr⟩ | ⟨r, hphase, hr, hshows⟩ := h.asks
  · rwa [hr _ hp.phase_eq, if_neg nofun]
  · obtain rfl := Phase.disconnected.inj (hp.phase_eq.symm.trans hphase)
    rw [hp.visited.settings_eq] at hshows
    rwa [hr, if_pos rfl]

def noThread : Script where
  turns := [{ threadFails := true }, {}]

theorem lookups_are_paced_after_noThread :
    ∃ first p q, create Script.system { host := "irc.example.net", port := 6667 } 0 { os := noThread } = .ok first ∧
      Resting Script.system first 0 p ∧ Step Script.system p q ∧
      p.cycle.world.Shows Event.asked? [⟨"irc.example.net", 6667⟩] q.cycle.world ∧
      Onward Script.system first 30000 [0, 30000] q ∧
      [0, 30000].Pairwise fun x y => x + first.connection.settings.retryDelay ≤ y := by
  have hS := Script.system_bounded
  obtain ⟨e, he⟩ : ∃ e, create Script.system { host := "irc.example.net", port := 6667 } 0 { os := noThread } = .ok e :=
    ⟨_, rfl⟩
  have hsettings : e.connection.settings = { host := "irc.example.net", port := 6667 } := by rw [create_connection he]; rfl
  obtain ⟨b, hb⟩ : ∃ b, Buffers.create 4 = .ok b := ⟨_, rfl⟩
  let waited (now : Nat) (c : Cycle Script) : Call.Waited × World Script :=
    c.world.wait Script.system c.connection.settings.eventCapacity (waitTimeout c.connection now none)
  let after (now : Nat) (c : Cycle Script) : Cycle Script :=
    ({ c with world := (waited now c).2 } : Cycle Script).afterEvents Script.system now (World.startLookup Script.system)
  have heval : (do
      let c₁ ← Cycle.beforeWait Script.system 0 ⟨e.connection, b, e.world, {}⟩
      let d₁ := after 0 c₁
      let c₂ ← Cycle.beforeWait Script.system 30000 ⟨d₁.connection, d₁.buffers, d₁.world, {}⟩
      return (c₁.connection.phase, (waited 0 c₁).1, d₁.connection.phase, c₂.connection.phase, (waited 30000 c₂).1)) =
        .ok (.disconnected 0, .events [], .disconnected 30000, .disconnected 30000, .events []) := by
    obtain rfl := Except.ok.inj he
    obtain rfl := Except.ok.inj hb
    decide +kernel
  obtain ⟨c₁, hc₁⟩ := Cycle.beforeWait_isOk hS 0 ⟨e.connection, b, e.world, {}⟩
  let d₁ := after 0 c₁
  obtain ⟨c₂, hc₂⟩ := Cycle.beforeWait_isOk hS 30000 ⟨d₁.connection, d₁.buffers, d₁.world, {}⟩
  simp only [hc₁, hc₂, d₁, bind, Except.bind, pure, Except.pure, Except.ok.injEq, Prod.mk.injEq] at heval
  obtain ⟨hphase₁, hw₁, hfallen, hphase₂, hw₂⟩ := heval
  let p₁ : Point Script := .handling 0 { c₁ with world := (waited 0 c₁).2 } []
  let p₂ : Point Script := .handling 30000 { c₂ with world := (waited 30000 c₂).2 } []
  have hbegin₁ : StepAt Script.system 0 (.idle e b) (.waiting 0 none c₁) := ⟨.begin none hc₁, rfl⟩
  have hready₁ : StepAt Script.system 0 (.waiting 0 none c₁) p₁ := ⟨.ready (Prod.ext hw₁ rfl), rfl⟩
  have hfinish₁ : StepAt Script.system 0 p₁ (.idle ⟨d₁.connection, d₁.world, {}⟩ d₁.buffers) := ⟨.finish _ _, rfl⟩
  have hbegin₂ : StepAt Script.system 30000 (.idle ⟨d₁.connection, d₁.world, {}⟩ d₁.buffers) (.waiting 30000 none c₂) :=
    ⟨.begin none hc₂, rfl⟩
  have hready₂ : StepAt Script.system 30000 (.waiting 30000 none c₂) p₂ := ⟨.ready (Prod.ext hw₂ rfl), rfl⟩
  have hasked₁ := afterEvents_asked (S := Script.system) (c := p₁.cycle) hphase₁ (Nat.le_refl 0)
  have hasked₂ := afterEvents_asked (S := Script.system) (c := p₂.cycle) hphase₂ (Nat.le_refl 30000)
  obtain ⟨_, hread⟩ := (counted_of_create he hb).read
  have hp₁ : Visited Script.system e p₁ := ((Visited.start hread.wellFormed).step hbegin₁.step).step hready₁.step
  have hrest : Resting Script.system e 0 p₂ := by
    have hfalls : Resting Script.system e 0 (.idle ⟨d₁.connection, d₁.world, {}⟩ d₁.buffers) := by
      refine .falls hp₁ hfinish₁ (Connection.state_eq_disconnected.mpr ⟨30000, hfallen⟩) fun _ hnone => ?_
      exact absurd (hasked₁.unique hnone) nofun
    exact (hfalls.step rfl hbegin₂.step).step rfl hready₂.step
  have hon₁ : Onward Script.system e 0 [] p₁ :=
    ((Onward.start hread.wellFormed).step_on (Nat.le_refl 0) hbegin₁ fun _ => rfl).step_on (Nat.le_refl 0) hready₁
      fun _ => rfl
  have hon₂ : Onward Script.system e 30000 [0] p₂ :=
    ((hon₁.step (Nat.le_refl 0) hfinish₁ hasked₁).step_on (Nat.zero_le _) hbegin₂ fun _ => rfl).step_on (Nat.le_refl _)
      hready₂ fun _ => rfl
  have hfinish₂ : StepAt Script.system 30000 p₂ _ := ⟨.finish _ _, rfl⟩
  have hon := hon₂.step (Nat.le_refl _) hfinish₂ hasked₂
  have hnext := lookups_are_paced.1 0 p₂ _ hrest hfinish₂.step
  rw [hsettings] at hnext
  exact ⟨e, p₂, _, he, hrest, hfinish₂.step, hnext, hon, lookups_are_paced.2 _ _ _ hon⟩

end Engine

end IrcLink
