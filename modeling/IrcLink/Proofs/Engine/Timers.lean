import IrcLink.Proofs.Engine.Happenings
import IrcLink.Proofs.Journal.Clock

/-!
A cycle sets its timers by the time at which it began, whatever time its wait then takes. So a candidate may be given less
time than is allowed for it, and a pause may be shorter than it should be, by as much as the wait took.
-/

namespace IrcLink

namespace Event

theorem waitTimeout_of_isTrial {e : Event} (h : e.isTrial = true) : e.waitTimeout? = none := by
  cases e with
  | call c a => exact waitTimeout_of_isErrand h
  | _ => rfl

theorem waitTimeout_of_isWork {e : Event} (h : e.isWork = true) : e.waitTimeout? = none := by
  cases e with
  | call c a => exact waitTimeout_of_isErrand h
  | _ => rfl

theorem asked_of_isWork {e : Event} (h : e.isWork = true) : e.asked? = none := by
  cases e with
  | asked l r => simp [isWork, isErrand] at h
  | _ => rfl

end Event

namespace World

variable {ω : Type} {S : System ω} {w w' : World ω}

theorem Only.asked_eq (h : Only (·.asked? = none) w w') :
    ∃ seg : Journal, w'.journal = w.journal ++ seg ∧ seg.asked = [] := by
  obtain ⟨seg, hj, hn⟩ := h.entries fun _ => Event.asked_of_foreign
  exact ⟨seg, hj, List.filterMap_eq_nil_iff.mpr hn⟩

theorem Goes.journal_eq (h : w.Goes w') : ∃ seg : Journal, w'.journal = w.journal ++ seg := by
  obtain ⟨_, seg, hj, -⟩ := h
  exact ⟨seg, hj⟩

end World

namespace Cycle

variable {ω : Type} {S : System ω} {now slack : Nat} {c c' c'' : Cycle ω}

/-- The connection is where it was and no lookup was asked for. Or it has moved; if it has come to rest then it pauses from
`now` on, and if it was resting then its pause was over and a lookup was asked for. -/
structure Rests (now : Nat) (c c' : Cycle ω) : Prop where
  settings_eq : c'.connection.settings = c.connection.settings
  phase : ∃ seg : Journal, c'.world.journal = c.world.journal ++ seg ∧
    (c'.connection.phase = c.connection.phase ∧ seg.asked = [] ∨
      (∀ r, c'.connection.phase = .disconnected r → r = now + c.connection.settings.retryDelay) ∧
        ∀ r, c.connection.phase = .disconnected r → r ≤ now ∧ seg.asked ≠ [])

namespace Rests

theorem of_only (hs : c'.connection.settings = c.connection.settings)
    (hphase : c'.connection.phase = c.connection.phase) (hw : World.Only (·.asked? = none) c.world c'.world) :
    Rests now c c' := by
  obtain ⟨seg, hj, hasked⟩ := hw.asked_eq
  exact ⟨hs, seg, hj, .inl ⟨hphase, hasked⟩⟩

theorem refl (c : Cycle ω) : Rests now c c := of_only rfl rfl (.refl _)

theorem of_goes (hs : c'.connection.settings = c.connection.settings) (hw : c.world.Goes c'.world)
    (hrest : ∀ r, c'.connection.phase = .disconnected r → r = now + c.connection.settings.retryDelay)
    (hup : ∀ r, c.connection.phase ≠ .disconnected r) : Rests now c c' := by
  obtain ⟨seg, hj⟩ := hw.journal_eq
  exact ⟨hs, seg, hj, .inr ⟨hrest, fun r hr => absurd hr (hup r)⟩⟩

theorem trans (h : Rests now c c') (h' : Rests now c' c'') : Rests now c c'' := by
  obtain ⟨hs, seg, hj, hphase⟩ := h
  obtain ⟨hs', seg', hj', hphase'⟩ := h'
  refine ⟨hs'.trans hs, seg ++ seg', by rw [hj', hj, List.append_assoc], ?_⟩
  have happend : (seg ++ seg').asked = seg.asked ++ seg'.asked := List.filterMap_append
  rw [happend]
  -- the first to move tells whether a pause was over, the last whether one begins
  obtain ⟨hkept, hnone⟩ | ⟨hrest, hdue⟩ := hphase
  · rw [hnone, List.nil_append]
    obtain ⟨hkept', hnone'⟩ | ⟨hrest', hdue'⟩ := hphase'
    · exact .inl ⟨hkept'.trans hkept, hnone'⟩
    · refine .inr ⟨by rwa [hs] at hrest', fun r hr => hdue' r (hkept.trans hr)⟩
  · have hasked : ∀ r, c.connection.phase = .disconnected r → r ≤ now ∧ seg.asked ++ seg'.asked ≠ [] := by
      intro r hr
      obtain ⟨hle, hne⟩ := hdue r hr
      exact ⟨hle, fun hnil => hne (List.append_eq_nil_iff.mp hnil).1⟩
    obtain ⟨hkept', -⟩ | ⟨hrest', -⟩ := hphase'
    · exact .inr ⟨fun r hr => hrest r (hkept'.symm.trans hr), hasked⟩
    · exact .inr ⟨by rwa [hs] at hrest', hasked⟩

end Rests

theorem onLookup_rests (r : Resolution) : Rests now c (c.onLookup now r) := by
  unfold onLookup
  split
  · rename_i hphase
    exact .of_goes rfl (.refl _) nofun (by rw [hphase]; nofun)
  · rename_i hphase _
    refine .of_goes rfl (.refl _) ?_ (by rw [hphase]; nofun)
    intro r hr
    exact (Phase.disconnected.inj hr).symm
  · exact .refl c

theorem afterEvents_rests {retryAt : Nat} (hphase : c.connection.phase = .disconnected retryAt) (hdue : retryAt ≤ now) :
    Rests now c (c.afterEvents S now (World.startLookup S)) := by
  have ha : Asks S now c (c.afterEvents S now (World.startLookup S)) := afterEvents_asks hphase hdue
  obtain ⟨l, refusal, w, hv, hw⟩ := ha.asked
  obtain ⟨seg, hj⟩ := hv.only.goes.journal_eq
  refine ⟨ha.settings_eq, seg ++ [⟨S.time w.os, .asked l refusal⟩], ?_, .inr ⟨?_, ?_⟩⟩
  · rw [hw, ← List.append_assoc, ← hj]
    rfl
  · intro r hr
    obtain hended | hended := ha.ended
    · exact absurd (hended.symm.trans hr) nofun
    · exact (Phase.disconnected.inj (hended.symm.trans hr)).symm
  · intro r hr
    obtain rfl := Phase.disconnected.inj (hphase.symm.trans hr)
    refine ⟨hdue, ?_⟩
    rw [Journal.asked, List.filterMap_append]
    exact List.append_ne_nil_of_right_ne_nil _ (List.cons_ne_nil l [])

theorem Works.rests (h : Works S now c c') : Rests now c c' := by
  have hw : World.Only (·.asked? = none) c.world c'.world := h.calls.only.mono fun _ => Event.asked_of_isWork
  cases h with
  | aside => exact .of_only rfl rfl hw
  | receives hphase h =>
    obtain ⟨t, -, -, rfl⟩ := receive_ok h
    exact .of_only rfl rfl hw
  | transmits hphase h =>
    obtain ⟨t, -, -, rfl⟩ := transmit_ok h
    exact .of_only rfl rfl hw
  | rearms => exact .of_only rfl rfl hw
  | mayWrite => exact .of_only rfl rfl hw
  | watches => exact .of_only rfl rfl hw
  | @loses s peer hphase =>
    refine .of_goes rfl hw.goes ?_ (by rw [hphase]; nofun)
    intro r hr
    exact (Phase.disconnected.inj hr).symm
  | connects hphase => exact .of_goes rfl hw.goes nofun (by rw [hphase]; nofun)
  | dials hstate =>
    have ht := nextAddress_tries S now hstate
    refine .of_goes ht.settings_eq hw.goes ?_ ?_
    · intro r hr
      obtain hended | ⟨_, _, _, _, hended, -⟩ := ht.ended
      · exact (Phase.disconnected.inj (hended.symm.trans hr)).symm
      · exact absurd (hended.symm.trans hr) nofun
    · intro r hr
      simp [Connection.state, hr] at hstate

theorem Happens.rests (h : Happens S now c c') : Rests now c c' := by
  cases h with
  | works h => exact h.rests
  | looks => exact .of_only rfl rfl (.of_does (World.takeStop_does S c.world) rfl)
  | @collects r world h =>
    have hv : c.world.Via S (·.asked? = none) (c.world.collect S).2 := World.collect_via S c.world fun _ => rfl
    rw [h] at hv
    have hc : Rests now c { c with world } := .of_only rfl rfl hv.only
    exact hc.trans (onLookup_rests r)
  | asks hphase hdue => exact afterEvents_rests hphase hdue

theorem Path.rests (h : Path S now c c') : Rests now c c' := by
  induction h with
  | refl => exact .refl c
  | tail _ h ih => exact ih.trans h.rests

theorem Happens.lasts (hS : S.Steady) (h : Happens S now c c') : c.world.Lasts S 0 c'.world := by
  cases h with
  | works h => exact h.calls.via.lasts hS fun _ => Event.waitTimeout_of_isWork
  | looks =>
    have hv : c.world.Via S (·.waitTimeout? = none) (c.world.takeStop S).2 := World.takeStop_via S c.world fun _ => rfl
    exact hv.lasts hS fun _ => id
  | collects h =>
    have hv : c.world.Via S (·.waitTimeout? = none) (c.world.collect S).2 := World.collect_via S c.world fun _ => rfl
    rw [h] at hv
    rw [onLookup_world]
    exact hv.lasts hS fun _ => id
  | asks hphase hdue =>
    obtain ⟨l, refusal, w, hv, hw⟩ := (afterEvents_asks (S := S) hphase hdue).asked
    rw [hw]
    exact (hv.lasts hS fun _ => Event.waitTimeout_of_isErrand).trans (World.record_lasts _ _)

theorem Path.lasts (hS : S.Steady) (h : Path S now c c') : c.world.Lasts S 0 c'.world := by
  induction h with
  | refl => exact .refl _
  | tail _ h ih => exact ih.trans (h.lasts hS)

/-- The deadline of the candidate was set by a clock that was behind by no more than this when the candidate was dialled. -/
def Prompt (slack : Nat) (c : Cycle ω) : Prop :=
  ∀ s a rest deadline, c.connection.phase = .connecting s a rest deadline → ∃ t, c.world.journal.lastDial? = some (t, a) ∧
    deadline ≤ t + c.connection.settings.connectTimeout ∧ t + c.connection.settings.connectTimeout ≤ deadline + slack

theorem Prompt.of_only (hc : Prompt slack c) (hs : c'.connection.settings = c.connection.settings)
    (hphase : c'.connection.phase = c.connection.phase) (hw : World.Only (·.dialled? = none) c.world c'.world) :
    Prompt slack c' := by
  unfold Prompt at *
  rwa [hphase, hs, hw.lastDial_eq]

theorem Prompt.of_phase (h : ∀ s a rest deadline, c.connection.phase ≠ .connecting s a rest deadline) : Prompt slack c :=
  fun s a rest deadline hphase => absurd hphase (h s a rest deadline)

theorem Works.prompt (hS : S.Steady) (h : Works S now c c') (hnow : now ≤ S.time c.world.os)
    (hslack : S.time c.world.os ≤ now + slack) (hc : Prompt slack c) : Prompt slack c' := by
  cases h with
  | aside h => exact hc.of_only rfl rfl (h.only.mono fun _ => Event.dialled_of_isAside)
  | receives hphase h =>
    apply Prompt.of_phase
    rw [(receive_stays h).phase_eq, hphase]
    nofun
  | transmits hphase h =>
    apply Prompt.of_phase
    rw [(transmit_stays h).phase_eq, hphase]
    nofun
  | rearms hphase => exact hc.of_only rfl rfl (.refl _)
  | mayWrite hphase => exact hc.of_only rfl rfl (.refl _)
  | watches hphase =>
    apply Prompt.of_phase
    simp [hphase]
  | loses => exact .of_phase nofun
  | connects => exact .of_phase nofun
  | dials hstate =>
    have ht := nextAddress_tries S now hstate
    intro s a rest deadline hphase
    obtain hended | ⟨s', a', rest', w, hended, hbefore, hafter⟩ := ht.ended
    · exact absurd (hended.symm.trans hphase) nofun
    · obtain ⟨rfl, rfl, rfl, rfl⟩ := Phase.connecting.inj (hended.symm.trans hphase)
      -- no time passes on the way to the dial, so its entry bears the time at the start
      have htime := (hbefore.via.lasts hS fun _ => Event.waitTimeout_of_isTrial).time_eq
      refine ⟨S.time w.os, ?_, ?_, ?_⟩
      · rw [(hafter.only.mono fun _ => Event.dialled_of_isErrand).lastDial_eq, World.lastDial_record]
      · rw [ht.settings_eq]
        omega
      · rw [ht.settings_eq]
        omega

theorem Happens.prompt (hS : S.Steady) (h : Happens S now c c') (hnow : now ≤ S.time c.world.os)
    (hslack : S.time c.world.os ≤ now + slack) (hc : Prompt slack c) : Prompt slack c' := by
  cases h with
  | works h => exact h.prompt hS hnow hslack hc
  | looks => exact hc.of_only rfl rfl (.of_does (World.takeStop_does S c.world) rfl)
  | @collects r world h =>
    have hv : c.world.Via S (·.dialled? = none) (c.world.collect S).2 := World.collect_via S c.world fun _ => rfl
    rw [h] at hv
    have hw : Prompt slack { c with world } := hc.of_only rfl rfl hv.only
    unfold onLookup
    split
    · exact .of_phase nofun
    · exact .of_phase nofun
    · exact hw
  | asks hphase hdue =>
    apply Prompt.of_phase
    intro s a rest deadline hp
    obtain hended | hended := (afterEvents_asks (S := S) hphase hdue).ended
    · exact absurd (hended.symm.trans hp) nofun
    · exact absurd (hended.symm.trans hp) nofun

theorem Path.prompt (hS : S.Steady) (h : Path S now c c') (hnow : now ≤ S.time c.world.os)
    (hslack : S.time c.world.os ≤ now + slack) (hc : Prompt slack c) : Prompt slack c' := by
  induction h with
  | refl => exact hc
  | tail hpath h ih =>
    have htime := (Path.lasts hS hpath).time_eq
    exact h.prompt hS (by omega) (by omega) ih

end Cycle

namespace Engine

open IrcLink.Cycle

variable {ω : Type} {S : System ω} {now slack t : Nat} {c : Cycle ω} {waited : Call.Waited} {world : World ω}
  {e e' : Engine ω} {b b' : Buffers} {timeout : Option Nat} {r : Except WaitError Outcome}

theorem waitTimeout_le (c : Connection) (now t : Nat) : ∃ u, waitTimeout c now (some t) = some u ∧ u ≤ t := by
  unfold waitTimeout
  split
  · exact ⟨t, rfl, Nat.le_refl t⟩
  · exact ⟨_, rfl, Nat.min_le_left _ _⟩

theorem wait_only {P : Event → Prop}
    (hw : c.world.wait S c.connection.settings.eventCapacity (waitTimeout c.connection now timeout) = (waited, world))
    (hP : ∀ capacity limit a, P (.call (.wait capacity limit) a)) : World.Only P c.world world := by
  exact .of_does (World.wait_does S hw) (hP _ _ _)

theorem wait_takes (hS : S.Steady)
    (hw : c.world.wait S c.connection.settings.eventCapacity (waitTimeout c.connection now (some t)) = (waited, world)) :
    c.world.Lasts S t world := by
  obtain ⟨u, hu, hle⟩ := waitTimeout_le c.connection now t
  have hl := World.wait_lasts hS c.world c.connection.settings.eventCapacity u
  rw [← hu, hw] at hl
  exact hl.mono hle

theorem cycle_rests (h : e.cycle S b now timeout = .ok (r, e', b')) :
    Rests now (Point.idle e b).cycle (Point.idle e' b').cycle := by
  obtain ⟨c, waited, world, c', hbefore, hw, hafter, rfl⟩ := cycle_ok h
  have hwait : Rests now c { c with world } := .of_only rfl rfl (wait_only hw fun _ _ _ => rfl)
  obtain ⟨hs, hphase⟩ := (hbefore.rests.trans hwait).trans hafter.rests
  exact ⟨hs, hphase⟩

theorem cycle_lasts (hS : S.Steady) (h : e.cycle S b now (some t) = .ok (r, e', b')) : e.world.Lasts S t e'.world := by
  obtain ⟨c, waited, world, c', hbefore, hw, hafter, rfl⟩ := cycle_ok h
  have hl := ((hbefore.lasts hS).trans (wait_takes hS hw)).trans (hafter.lasts hS)
  exact hl.mono (by omega)

theorem prompt_after_wait (hS : S.Steady) {c c₁ c' : Cycle ω} (hnow : now = S.time c.world.os)
    (hbefore : Path S now c c₁)
    (hw : c₁.world.wait S c₁.connection.settings.eventCapacity (waitTimeout c₁.connection now (some slack)) =
      (waited, world)) (hafter : Path S now { c₁ with world } c') (hc : Prompt slack c) : Prompt slack c' := by
  have htime := (hbefore.lasts hS).time_eq
  have hwait : Prompt slack { c₁ with world } :=
    (hbefore.prompt hS (by omega) (by omega) hc).of_only rfl rfl (wait_only hw fun _ _ _ => rfl)
  obtain ⟨hon, hin, -⟩ := wait_takes hS hw
  exact hafter.prompt hS (by change now ≤ S.time world.os; omega) (by change S.time world.os ≤ now + slack; omega) hwait

theorem cycle_prompt (hS : S.Steady) (hnow : now = S.time e.world.os)
    (h : e.cycle S b now (some slack) = .ok (r, e', b')) (hp : Prompt slack (Point.idle e b).cycle) :
    Prompt slack (Point.idle e' b').cycle := by
  obtain ⟨c, waited, world, c', hbefore, hw, hafter, rfl⟩ := cycle_ok h
  have hc' : Prompt slack c' := prompt_after_wait hS hnow hbefore hw hafter hp
  exact hc'

end Engine

end IrcLink
