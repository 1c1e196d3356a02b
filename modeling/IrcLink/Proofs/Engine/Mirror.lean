import IrcLink.Proofs.Engine.Run
import IrcLink.Proofs.Engine.Stages
import IrcLink.Proofs.Ring.Alike

/-!
Two engines side by side, on two systems that have nothing to do with each other. If both are connected, their buffers
cannot be told apart and both see the same, then both send the same, and stay side by side until both lose the
connection. What they see is what their sockets answer, what their waits report and whether they find a request to stop.
-/

namespace IrcLink

section

variable {ω₁ ω₂ : Type} {S₁ : System ω₁} {S₂ : System ω₂} {s₁ s₂ : Socket} {w₁ w₁' w₁'' : World ω₁}
  {w₂ w₂' w₂'' : World ω₂} {P Q : Prop}

/-- If two engines that went from the one world to the other have seen the same, and whatever they see later, then both
have sent the same on their sockets, and something else is so. -/
def Mirror (s₁ s₂ : Socket) (w₁ w₁' : World ω₁) (w₂ w₂' : World ω₂) (P : Prop) : Prop :=
  ∃ es₁ es₂, w₁.Does es₁ w₁' ∧ w₂.Does es₂ w₂' ∧
    ∀ l₁ l₂, es₁.filterMap Event.sight? ++ l₁ = es₂.filterMap Event.sight? ++ l₂ →
      l₁ = l₂ ∧ es₁.flatMap (Event.sentOn s₁) = es₂.flatMap (Event.sentOn s₂) ∧ P

namespace Mirror

theorem of_unseen (h₁ : w₁.Unseen w₁') (h₂ : w₂.Unseen w₂') (hP : P) : Mirror s₁ s₂ w₁ w₁' w₂ w₂' P := by
  obtain ⟨es₁, hd₁, he₁⟩ := h₁
  obtain ⟨es₂, hd₂, he₂⟩ := h₂
  have hs₁ : es₁.flatMap (Event.sentOn s₁) = [] := List.flatMap_eq_nil_iff.mpr fun e he => by
    exact Event.sentOn_of_sight (he₁ e he)
  have hs₂ : es₂.flatMap (Event.sentOn s₂) = [] := List.flatMap_eq_nil_iff.mpr fun e he => by
    exact Event.sentOn_of_sight (he₂ e he)
  refine ⟨es₁, es₂, hd₁, hd₂, fun l₁ l₂ hl => ⟨?_, hs₁.trans hs₂.symm, hP⟩⟩
  rwa [List.filterMap_eq_nil_iff.mpr he₁, List.filterMap_eq_nil_iff.mpr he₂] at hl

theorem of_hush (h₁ : w₁.Hush w₁') (h₂ : w₂.Hush w₂') (hP : P) : Mirror s₁ s₂ w₁ w₁' w₂ w₂' P :=
  of_unseen h₁.unseen h₂.unseen hP

theorem of_seen {es₁ es₂ : List Event} {x₁ x₂ : Sight} (h₁ : w₁.Does es₁ w₁') (h₂ : w₂.Does es₂ w₂')
    (hx₁ : es₁.filterMap Event.sight? = [x₁]) (hx₂ : es₂.filterMap Event.sight? = [x₂])
    (h : x₁ = x₂ → es₁.flatMap (Event.sentOn s₁) = es₂.flatMap (Event.sentOn s₂) ∧ P) :
    Mirror s₁ s₂ w₁ w₁' w₂ w₂' P := by
  refine ⟨es₁, es₂, h₁, h₂, fun l₁ l₂ hl => ?_⟩
  rw [hx₁, hx₂] at hl
  obtain ⟨hx, hl⟩ := List.cons.inj hl
  obtain ⟨hs, hP⟩ := h hx
  exact ⟨hl, hs, hP⟩

theorem of_sight {e₁ e₂ : Event} {x₁ x₂ : Sight} (h₁ : w₁.Does [e₁] w₁') (h₂ : w₂.Does [e₂] w₂')
    (hx₁ : e₁.sight? = some x₁) (hx₂ : e₂.sight? = some x₂)
    (h : x₁ = x₂ → e₁.sentOn s₁ = e₂.sentOn s₂ ∧ P) : Mirror s₁ s₂ w₁ w₁' w₂ w₂' P := by
  refine of_seen h₁ h₂ (List.filterMap_cons_some hx₁) (List.filterMap_cons_some hx₂) fun hx => ?_
  obtain ⟨hs, hP⟩ := h hx
  exact ⟨by simpa using hs, hP⟩

theorem trans (h : Mirror s₁ s₂ w₁ w₁' w₂ w₂' P) (g₁ : w₁'.Goes w₁'') (g₂ : w₂'.Goes w₂'')
    (h' : P → Mirror s₁ s₂ w₁' w₁'' w₂' w₂'' Q) : Mirror s₁ s₂ w₁ w₁'' w₂ w₂'' Q := by
  obtain ⟨es₁, es₂, hd₁, hd₂, hm⟩ := h
  obtain ⟨es₁', hd₁'⟩ := g₁
  obtain ⟨es₂', hd₂'⟩ := g₂
  refine ⟨es₁ ++ es₁', es₂ ++ es₂', hd₁.trans hd₁', hd₂.trans hd₂', fun l₁ l₂ hl => ?_⟩
  rw [List.filterMap_append, List.filterMap_append, List.append_assoc, List.append_assoc] at hl
  obtain ⟨hl, hs, hP⟩ := hm _ _ hl
  obtain ⟨fs₁, fs₂, hf₁, hf₂, hm'⟩ := h' hP
  obtain rfl := hf₁.unique hd₁'
  obtain rfl := hf₂.unique hd₂'
  obtain ⟨hl, hs', hQ⟩ := hm' _ _ hl
  exact ⟨hl, by rw [List.flatMap_append, List.flatMap_append, hs, hs'], hQ⟩

theorem imp (h : Mirror s₁ s₂ w₁ w₁' w₂ w₂' P) (hPQ : P → Q) : Mirror s₁ s₂ w₁ w₁' w₂ w₂' Q := by
  obtain ⟨es₁, es₂, hd₁, hd₂, hm⟩ := h
  refine ⟨es₁, es₂, hd₁, hd₂, fun l₁ l₂ hl => ?_⟩
  obtain ⟨hl, hs, hP⟩ := hm l₁ l₂ hl
  exact ⟨hl, hs, hPQ hP⟩

theorem after_hush (h₁ : w₁.Hush w₁') (h₂ : w₂.Hush w₂') (h : Mirror s₁ s₂ w₁' w₁'' w₂' w₂'' Q) :
    Mirror s₁ s₂ w₁ w₁'' w₂ w₂'' Q := by
  obtain ⟨es₁, es₂, hd₁, hd₂, -⟩ := id h
  exact (of_hush h₁ h₂ trivial).trans ⟨es₁, hd₁⟩ ⟨es₂, hd₂⟩ fun _ => h

theorem before_hush (h : Mirror s₁ s₂ w₁ w₁' w₂ w₂' P) (h₁ : w₁'.Hush w₁'') (h₂ : w₂'.Hush w₂'') :
    Mirror s₁ s₂ w₁ w₁'' w₂ w₂'' P := by
  exact h.trans h₁.goes h₂.goes fun hP => of_hush h₁ h₂ hP

end Mirror

def Echo (s₁ s₂ : Socket) (w₁ w₁' : World ω₁) (w₂ w₂' : World ω₂) : Prop :=
  ∃ es₁ es₂, w₁.Does es₁ w₁' ∧ w₂.Does es₂ w₂' ∧
    (es₁.filterMap Event.sight? = es₂.filterMap Event.sight? →
      es₁.flatMap (Event.sentOn s₁) = es₂.flatMap (Event.sentOn s₂))

theorem Mirror.echo (h : Mirror s₁ s₂ w₁ w₁' w₂ w₂' P) (g₁ : w₁'.Goes w₁'') (g₂ : w₂'.Goes w₂'')
    (h' : P → Echo s₁ s₂ w₁' w₁'' w₂' w₂'') : Echo s₁ s₂ w₁ w₁'' w₂ w₂'' := by
  obtain ⟨es₁, es₂, hd₁, hd₂, hm⟩ := h
  obtain ⟨es₁', hd₁'⟩ := g₁
  obtain ⟨es₂', hd₂'⟩ := g₂
  refine ⟨es₁ ++ es₁', es₂ ++ es₂', hd₁.trans hd₁', hd₂.trans hd₂', fun hl => ?_⟩
  rw [List.filterMap_append, List.filterMap_append] at hl
  obtain ⟨hl, hs, hP⟩ := hm _ _ hl
  obtain ⟨fs₁, fs₂, hf₁, hf₂, he⟩ := h' hP
  obtain rfl := hf₁.unique hd₁'
  obtain rfl := hf₂.unique hd₂'
  rw [List.flatMap_append, List.flatMap_append, hs, he hl]

theorem Echo.of_sees_left (h : w₁.Sees w₁') : Echo s₁ s₂ w₁ w₁' w₂ w₂ := by
  obtain ⟨es, hd, hne⟩ := h
  exact ⟨es, [], hd, .refl _, fun he => absurd he hne⟩

theorem Echo.of_sees_right (h : w₂.Sees w₂') : Echo s₁ s₂ w₁ w₁ w₂ w₂' := by
  obtain ⟨es, hd, hne⟩ := h
  exact ⟨[], es, .refl _, hd, fun he => absurd he.symm hne⟩

theorem Echo.sentOn_eq {seg₁ seg₂ : Journal} (h : Echo s₁ s₂ w₁ w₁' w₂ w₂') (h₁ : w₁'.journal = w₁.journal ++ seg₁)
    (h₂ : w₂'.journal = w₂.journal ++ seg₂) (hs : seg₁.sights = seg₂.sights) : seg₁.sentOn s₁ = seg₂.sentOn s₂ := by
  obtain ⟨es₁, es₂, hd₁, hd₂, he⟩ := h
  obtain rfl := hd₁.unique ⟨seg₁, h₁, rfl⟩
  obtain rfl := hd₂.unique ⟨seg₂, h₂, rfl⟩
  rw [Journal.sights_own, Journal.sights_own, Journal.sentOn_own, Journal.sentOn_own] at he
  exact he hs

inductive Pass.Alike : Pass ω₁ → Pass ω₂ → Prop
  | moved {n : Nat} {ring₁ ring₂ : Ring} {w₁ : World ω₁} {w₂ : World ω₂} (h : ring₁.Alike ring₂) :
      Pass.Alike (.moved n ring₁ w₁) (.moved n ring₂ w₂)
  | stopped {stop : Stop} {w₁ : World ω₁} {w₂ : World ω₂} : Pass.Alike (.stopped stop w₁) (.stopped stop w₂)

namespace Transfer

variable {ring₁ ring₂ : Ring}

theorem Reads.alike {r : Call.Received} {p₁ : Pass ω₁} {p₂ : Pass ω₂} (ha : ring₁.Alike ring₂)
    (h₁ : Reads ring₁ w₁ r p₁) (h₂ : Reads ring₂ w₂ r p₂) : p₁.Alike p₂ := by
  cases h₁ with
  | ended =>
    cases h₂ with
    | ended => exact .stopped
    | moved hne => exact absurd rfl hne
  | wouldBlock =>
    cases h₂
    exact .stopped
  | failed code =>
    cases h₂
    exact .stopped
  | moved hne hle =>
    cases h₂ with
    | ended => exact absurd rfl hne
    | moved => exact .moved (ha.fill hle)

theorem Writes.alike {r : Call.Sent} {p₁ : Pass ω₁} {p₂ : Pass ω₂} (ha : ring₁.Alike ring₂)
    (h₁ : Writes ring₁ w₁ r p₁) (h₂ : Writes ring₂ w₂ r p₂) : p₁.Alike p₂ := by
  cases h₁ with
  | ended =>
    cases h₂ with
    | ended => exact .stopped
    | moved hne => exact absurd rfl hne
  | wouldBlock =>
    cases h₂
    exact .stopped
  | failed code =>
    cases h₂
    exact .stopped
  | moved hne hle =>
    cases h₂ with
    | ended => exact absurd rfl hne
    | moved => exact .moved (ha.advanceHead hle)

theorem receivePass_mirror {p₁ : Pass ω₁} {p₂ : Pass ω₂} (ha : ring₁.Alike ring₂)
    (h₁ : receivePass S₁ s₁ ring₁ w₁ = .ok p₁) (h₂ : receivePass S₂ s₂ ring₂ w₂ = .ok p₂) :
    Mirror s₁ s₂ w₁ p₁.world w₂ p₂.world (p₁.Alike p₂) := by
  have hlen := ha.writeSpanLength_eq
  obtain ⟨hz₁, rfl⟩ | ⟨hz₁, n₁, a₁, w₁', hd₁, hr₁⟩ := receivePass_ok h₁
  · obtain ⟨-, rfl⟩ | ⟨hz₂, -⟩ := receivePass_ok h₂
    · exact .of_hush (.refl w₁) (.refl w₂) .stopped
    · exact absurd (hlen ▸ hz₁) hz₂
  · obtain ⟨hz₂, rfl⟩ | ⟨-, n₂, a₂, w₂', hd₂, hr₂⟩ := receivePass_ok h₂
    · exact absurd (hlen ▸ hz₂) hz₁
    · rw [hr₁.world_eq, hr₂.world_eq]
      refine .of_seen hd₁ hd₂ (hr₁.sights_eq s₁ _ n₁) (hr₂.sights_eq s₂ _ n₂) fun hx => ⟨?_, ?_⟩
      · rw [Event.flatMap_tries (Event.sentOn_of_sight rfl), Event.flatMap_tries (Event.sentOn_of_sight rfl)]
        simp [Event.sentOn, Event.stream?, Event.sent]
      · rw [Sight.received.inj hx] at hr₁
        exact hr₁.alike ha hr₂

theorem transmitPass_mirror {p₁ : Pass ω₁} {p₂ : Pass ω₂} (ha : ring₁.Alike ring₂)
    (h₁ : transmitPass S₁ s₁ ring₁ w₁ = .ok p₁) (h₂ : transmitPass S₂ s₂ ring₂ w₂ = .ok p₂) :
    Mirror s₁ s₂ w₁ p₁.world w₂ p₂.world (p₁.Alike p₂) := by
  have hempty := ha.isEmpty_eq
  obtain ⟨hz₁, rfl⟩ | ⟨hz₁, n₁, a₁, w₁', hd₁, hr₁⟩ := transmitPass_ok h₁
  · obtain ⟨-, rfl⟩ | ⟨hz₂, -⟩ := transmitPass_ok h₂
    · exact .of_hush (.refl w₁) (.refl w₂) .stopped
    · rw [← hempty, hz₁] at hz₂
      exact absurd hz₂ nofun
  · obtain ⟨hz₂, rfl⟩ | ⟨-, n₂, a₂, w₂', hd₂, hr₂⟩ := transmitPass_ok h₂
    · rw [← hempty, hz₁] at hz₂
      exact absurd hz₂ nofun
    · rw [hr₁.world_eq, hr₂.world_eq]
      refine .of_seen hd₁ hd₂ (hr₁.sights_eq s₁ _ n₁) (hr₂.sights_eq s₂ _ n₂) fun hx => ⟨?_, ?_⟩
      · have hs₁ : (Event.call (.write s₁ ring₁.readSpan) a₁).sentOn s₁ = _ := if_pos rfl
        have hs₂ : (Event.call (.write s₂ ring₂.readSpan) a₂).sentOn s₂ = _ := if_pos rfl
        rw [Event.flatMap_tries (Event.sentOn_of_sight rfl), Event.flatMap_tries (Event.sentOn_of_sight rfl), hs₁, hs₂,
          Sight.accepted.inj hx, ha.readSpan_eq]
        cases a₂ <;> rfl
      · rw [Sight.accepted.inj hx] at hr₁
        exact hr₁.alike ha hr₂

theorem Passes.goes {ω : Type} {pass : Ring → World ω → Except Fault (Pass ω)}
    (hpass : ∀ ring w p, pass ring w = .ok p → w.Goes p.world) {ring : Ring} {w : World ω} {t : Transferred ω}
    (h : Passes pass ring w t) : w.Goes t.world := by
  induction h with
  | stopped h => exact hpass _ _ _ h
  | moved h _ ih =>
    exact (hpass _ _ _ h).trans ih

theorem Passes.mirror {pass₁ : Ring → World ω₁ → Except Fault (Pass ω₁)} {pass₂ : Ring → World ω₂ → Except Fault (Pass ω₂)}
    (g₁ : ∀ ring w p, pass₁ ring w = .ok p → w.Goes p.world)
    (g₂ : ∀ ring w p, pass₂ ring w = .ok p → w.Goes p.world)
    (hpass : ∀ {ring₁ ring₂ w₁ w₂ p₁ p₂}, ring₁.Alike ring₂ → pass₁ ring₁ w₁ = .ok p₁ → pass₂ ring₂ w₂ = .ok p₂ →
      Mirror s₁ s₂ w₁ p₁.world w₂ p₂.world (p₁.Alike p₂))
    {t₁ : Transferred ω₁} {t₂ : Transferred ω₂} (ha : ring₁.Alike ring₂) (h₁ : Passes pass₁ ring₁ w₁ t₁)
    (h₂ : Passes pass₂ ring₂ w₂ t₂) :
    Mirror s₁ s₂ w₁ t₁.world w₂ t₂.world (t₁.stop = t₂.stop ∧ t₁.moved = t₂.moved ∧ t₁.ring.Alike t₂.ring) := by
  induction h₁ generalizing ring₂ w₂ t₂ with
  | stopped hp₁ =>
    cases h₂ with
    | stopped hp₂ =>
      refine (hpass ha hp₁ hp₂).imp fun hp => ?_
      cases hp
      exact ⟨rfl, rfl, ha⟩
    | moved hp₂ hl₂ => exact (hpass ha hp₁ hp₂).trans (.refl _) (hl₂.goes g₂) nofun
  | moved hp₁ hl₁ ih =>
    cases h₂ with
    | stopped hp₂ => exact (hpass ha hp₁ hp₂).trans (hl₁.goes g₁) (.refl _) nofun
    | moved hp₂ hl₂ =>
      refine (hpass ha hp₁ hp₂).trans (hl₁.goes g₁) (hl₂.goes g₂) fun hp => ?_
      cases hp with
      | moved ha' =>
        refine (ih ha' hl₂).imp fun hlast => ?_
        obtain ⟨hs, hm, hr⟩ := hlast
        exact ⟨hs, by rw [hm], hr⟩

theorem receivePass_goes {ω : Type} {S : System ω} {s : Socket} (ring : Ring) (w : World ω) (p : Pass ω)
    (h : receivePass S s ring w = .ok p) : w.Goes p.world := by
  obtain ⟨-, rfl⟩ | ⟨-, n, a, w', hd, hr⟩ := receivePass_ok h
  · exact .refl w
  · exact ⟨_, hr.world_eq ▸ hd⟩

theorem transmitPass_goes {ω : Type} {S : System ω} {s : Socket} (ring : Ring) (w : World ω) (p : Pass ω)
    (h : transmitPass S s ring w = .ok p) : w.Goes p.world := by
  obtain ⟨-, rfl⟩ | ⟨-, n, a, w', hd, hr⟩ := transmitPass_ok h
  · exact .refl w
  · exact ⟨_, hr.world_eq ▸ hd⟩

theorem receive_mirror {t₁ : Transferred ω₁} {t₂ : Transferred ω₂} (ha : ring₁.Alike ring₂)
    (h₁ : receive S₁ s₁ ring₁ w₁ = .ok t₁) (h₂ : receive S₂ s₂ ring₂ w₂ = .ok t₂) :
    Mirror s₁ s₂ w₁ t₁.world w₂ t₂.world (t₁.stop = t₂.stop ∧ t₁.moved = t₂.moved ∧ t₁.ring.Alike t₂.ring) :=
  Passes.mirror receivePass_goes receivePass_goes receivePass_mirror ha (receive_passes h₁) (receive_passes h₂)

theorem transmit_mirror {t₁ : Transferred ω₁} {t₂ : Transferred ω₂} (ha : ring₁.Alike ring₂)
    (h₁ : transmit S₁ s₁ ring₁ w₁ = .ok t₁) (h₂ : transmit S₂ s₂ ring₂ w₂ = .ok t₂) :
    Mirror s₁ s₂ w₁ t₁.world w₂ t₂.world (t₁.stop = t₂.stop ∧ t₁.moved = t₂.moved ∧ t₁.ring.Alike t₂.ring) :=
  Passes.mirror transmitPass_goes transmitPass_goes transmitPass_mirror ha (transmit_passes h₁) (transmit_passes h₂)

end Transfer

end

end IrcLink
