import IrcLink.Proofs.Engine.Mirror

/-!
The steps of two engines that are connected, side by side: each keeps them alike, or both lose the connection. Once it
is lost, neither sends any more in that cycle, whatever they see.
-/

namespace IrcLink

section

variable {ω₁ ω₂ : Type} {S₁ : System ω₁} {S₂ : System ω₂} {s₁ s₂ : Socket} {now₁ now₂ : Nat}

namespace Cycle

variable {c₁ c₁' : Cycle ω₁} {c₂ c₂' : Cycle ω₂}

structure Alike (c₁ : Cycle ω₁) (c₂ : Cycle ω₂) : Prop where
  buffers : c₁.buffers.Alike c₂.buffers
  flow_eq : c₁.connection.flow = c₂.connection.flow
  interest_eq : c₁.connection.writeInterest = c₂.connection.writeInterest
  connected_eq : c₁.outcome.connected = c₂.outcome.connected
  disconnected_eq : c₁.outcome.disconnected = c₂.outcome.disconnected
  stop_eq : c₁.outcome.stopRequested = c₂.outcome.stopRequested

/-- Among the events of a wait: both are connected, or both have lost the connection. -/
inductive Paired (s₁ s₂ : Socket) (c₁ : Cycle ω₁) (c₂ : Cycle ω₂) : Prop
  | up (ha : Alike c₁ c₂) (h₁ : c₁.onLink s₁) (h₂ : c₂.onLink s₂)
  | down (h₁ : c₁.connection.state = .disconnected) (h₂ : c₂.connection.state = .disconnected)

theorem Stays.onLink {ω : Type} {c c' : Cycle ω} {s : Socket} (h : Stays c c') (hs : c.onLink s) : c'.onLink s := by
  obtain ⟨peer, hp⟩ := hs
  exact ⟨peer, h.phase_eq.trans hp⟩

theorem lose_hush {ω : Type} (S : System ω) (now : Nat) (c : Cycle ω) (s : Socket) :
    c.world.Hush (c.lose S now s).world := World.abandon_hush c.world s

theorem lose_mirror (c₁ : Cycle ω₁) (c₂ : Cycle ω₂) :
    Mirror s₁ s₂ c₁.world (c₁.lose S₁ now₁ s₁).world c₂.world (c₂.lose S₂ now₂ s₂).world
      (Paired s₁ s₂ (c₁.lose S₁ now₁ s₁) (c₂.lose S₂ now₂ s₂)) :=
  .of_hush (lose_hush S₁ now₁ c₁ s₁) (lose_hush S₂ now₂ c₂ s₂) (.down rfl rfl)

theorem receive_mirror {alive₁ alive₂ : Bool} (ha : Alike c₁ c₂) (h₁ : c₁.receive S₁ s₁ = .ok (alive₁, c₁'))
    (h₂ : c₂.receive S₂ s₂ = .ok (alive₂, c₂')) :
    Mirror s₁ s₂ c₁.world c₁'.world c₂.world c₂'.world (alive₁ = alive₂ ∧ Alike c₁' c₂') := by
  obtain ⟨t₁, ht₁, h₁⟩ := Fault.bind_eq_ok.mp h₁
  obtain ⟨t₂, ht₂, h₂⟩ := Fault.bind_eq_ok.mp h₂
  obtain ⟨rfl, rfl⟩ := Prod.mk.inj (Except.ok.inj h₁)
  obtain ⟨rfl, rfl⟩ := Prod.mk.inj (Except.ok.inj h₂)
  have hm := Transfer.receive_mirror ha.buffers.read ht₁ ht₂
  refine (hm.imp fun ht => ?_).before_hush (World.record_hush _ rfl rfl) (World.record_hush _ rfl rfl)
  obtain ⟨hs, -, hr⟩ := ht
  refine ⟨by rw [hs], ⟨⟨hr, ha.buffers.write⟩, ?_, ha.interest_eq, ha.connected_eq, ha.disconnected_eq, ha.stop_eq⟩⟩
  simp only [setFlow, countStats]
  rw [hs, ha.flow_eq]

theorem transmit_mirror {alive₁ alive₂ : Bool} (ha : Alike c₁ c₂) (h₁ : c₁.transmit S₁ s₁ = .ok (alive₁, c₁'))
    (h₂ : c₂.transmit S₂ s₂ = .ok (alive₂, c₂')) :
    Mirror s₁ s₂ c₁.world c₁'.world c₂.world c₂'.world (alive₁ = alive₂ ∧ Alike c₁' c₂') := by
  obtain ⟨t₁, ht₁, h₁⟩ := Fault.bind_eq_ok.mp h₁
  obtain ⟨t₂, ht₂, h₂⟩ := Fault.bind_eq_ok.mp h₂
  obtain ⟨rfl, rfl⟩ := Prod.mk.inj (Except.ok.inj h₁)
  obtain ⟨rfl, rfl⟩ := Prod.mk.inj (Except.ok.inj h₂)
  refine (Transfer.transmit_mirror ha.buffers.write ht₁ ht₂).imp fun ht => ?_
  obtain ⟨hs, -, hr⟩ := ht
  refine ⟨by rw [hs], ⟨⟨ha.buffers.read, hr⟩, ?_, ha.interest_eq, ha.connected_eq, ha.disconnected_eq, ha.stop_eq⟩⟩
  simp only [setFlow, countStats]
  rw [hs, ha.flow_eq]

theorem Alike.setFlow {flow₁ flow₂ : Flow} (ha : Alike c₁ c₂) (h : flow₁ = flow₂) :
    Alike (c₁.setFlow flow₁) (c₂.setFlow flow₂) :=
  ⟨ha.buffers, h, ha.interest_eq, ha.connected_eq, ha.disconnected_eq, ha.stop_eq⟩

theorem Alike.countStats (f₁ f₂ : Stats → Stats) (ha : Alike c₁ c₂) : Alike (c₁.countStats f₁) (c₂.countStats f₂) :=
  ⟨ha.buffers, ha.flow_eq, ha.interest_eq, ha.connected_eq, ha.disconnected_eq, ha.stop_eq⟩

theorem receiveIfRoom_mirror {alive₁ anew₁ alive₂ anew₂ : Bool} (ha : Alike c₁ c₂)
    (h₁ : c₁.receiveIfRoom S₁ s₁ = .ok (alive₁, anew₁, c₁')) (h₂ : c₂.receiveIfRoom S₂ s₂ = .ok (alive₂, anew₂, c₂')) :
    Mirror s₁ s₂ c₁.world c₁'.world c₂.world c₂'.world (alive₁ = alive₂ ∧ anew₁ = anew₂ ∧ Alike c₁' c₂') := by
  unfold receiveIfRoom at h₁ h₂
  rw [← ha.buffers.read.free_eq, ← ha.flow_eq] at h₂
  by_cases hz : c₁.buffers.read.free = 0
  · rw [if_pos hz] at h₁ h₂
    obtain ⟨rfl, rfl, rfl⟩ := by simpa using h₁
    obtain ⟨rfl, rfl, rfl⟩ := by simpa using h₂
    exact .of_hush (.refl _) (.refl _) ⟨rfl, rfl, ha⟩
  · rw [if_neg hz] at h₁ h₂
    by_cases hf : c₁.connection.flow.readFull = true
    · rw [if_pos hf] at h₁ h₂
      obtain ⟨rfl, rfl, rfl⟩ := by simpa using h₁
      obtain ⟨rfl, rfl, rfl⟩ := by simpa using h₂
      exact .of_hush (.refl _) (.refl _) ⟨rfl, rfl, (ha.setFlow rfl).countStats _ _⟩
    · rw [if_neg hf] at h₁ h₂
      obtain ⟨⟨_, _⟩, hr₁, h₁⟩ := Fault.map_eq_ok.mp h₁
      obtain ⟨⟨_, _⟩, hr₂, h₂⟩ := Fault.map_eq_ok.mp h₂
      obtain ⟨rfl, rfl, rfl⟩ := by simpa using h₁
      obtain ⟨rfl, rfl, rfl⟩ := by simpa using h₂
      exact (receive_mirror ha hr₁ hr₂).imp fun h => ⟨h.1, rfl, h.2⟩

theorem transmitIfQueued_mirror {alive₁ alive₂ : Bool} (ha : Alike c₁ c₂)
    (h₁ : c₁.transmitIfQueued S₁ s₁ = .ok (alive₁, c₁')) (h₂ : c₂.transmitIfQueued S₂ s₂ = .ok (alive₂, c₂')) :
    Mirror s₁ s₂ c₁.world c₁'.world c₂.world c₂'.world (alive₁ = alive₂ ∧ Alike c₁' c₂') := by
  unfold transmitIfQueued at h₁ h₂
  rw [← ha.buffers.write.isEmpty_eq, ← ha.flow_eq] at h₂
  by_cases hz : c₁.buffers.write.isEmpty = true
  · rw [if_pos hz] at h₁ h₂
    obtain ⟨rfl, rfl⟩ := by simpa using h₁
    obtain ⟨rfl, rfl⟩ := by simpa using h₂
    exact .of_hush (.refl _) (.refl _) ⟨rfl, ha.setFlow rfl⟩
  · rw [if_neg hz] at h₁ h₂
    by_cases hf : c₁.connection.flow.writeFull = true
    · rw [if_pos hf] at h₁ h₂
      obtain ⟨rfl, rfl⟩ := by simpa using h₁
      obtain ⟨rfl, rfl⟩ := by simpa using h₂
      exact .of_hush (.refl _) (.refl _) ⟨rfl, ha⟩
    · rw [if_neg hf] at h₁ h₂
      exact transmit_mirror ha h₁ h₂

theorem watch_cases {ω : Type} (S : System ω) (c : Cycle ω) (s : Socket) (anew : Bool) :
    (anew || c.connection.flow.writeFull != c.connection.writeInterest) = false ∧ c.watch S s anew = (true, c) ∨
      (anew || c.connection.flow.writeFull != c.connection.writeInterest) = true ∧
        ∃ interest a w, c.world.Does [.call (.reregister s socketToken interest) a] w ∧
          c.watch S s anew = (a.isOk, { c with
            connection := { c.connection with
              writeInterest := if a.isOk then c.connection.flow.writeFull else c.connection.writeInterest }
            world := w }) := by
  have hd := World.call_does S c.world
    (c := .reregister s socketToken (if c.connection.flow.writeFull then .readWrite else .read)) nofun
  unfold watch
  dsimp only
  split
  · rename_i hw
    refine .inr ⟨hw, _, _, _, hd, ?_⟩
    split
    all_goals
      rename_i hc
      rw [hc]
      rfl
  · rename_i hw
    exact .inl ⟨Bool.eq_false_iff.mpr hw, rfl⟩

theorem watch_mirror (anew : Bool) (ha : Alike c₁ c₂) :
    Mirror s₁ s₂ c₁.world (c₁.watch S₁ s₁ anew).2.world c₂.world (c₂.watch S₂ s₂ anew).2.world
      ((c₁.watch S₁ s₁ anew).1 = (c₂.watch S₂ s₂ anew).1 ∧
        Alike (c₁.watch S₁ s₁ anew).2 (c₂.watch S₂ s₂ anew).2) := by
  have hneed : (anew || c₁.connection.flow.writeFull != c₁.connection.writeInterest) =
      (anew || c₂.connection.flow.writeFull != c₂.connection.writeInterest) := by rw [ha.flow_eq, ha.interest_eq]
  obtain ⟨hn₁, hw₁⟩ | ⟨hn₁, i₁, a₁, w₁, hd₁, hw₁⟩ := watch_cases S₁ c₁ s₁ anew
  all_goals obtain ⟨hn₂, hw₂⟩ | ⟨hn₂, i₂, a₂, w₂, hd₂, hw₂⟩ := watch_cases S₂ c₂ s₂ anew
  · rw [hw₁, hw₂]
    exact .of_hush (.refl _) (.refl _) ⟨rfl, ha⟩
  · rw [hn₁, hn₂] at hneed
    exact absurd hneed nofun
  · rw [hn₁, hn₂] at hneed
    exact absurd hneed nofun
  · rw [hw₁, hw₂]
    refine .of_sight hd₁ hd₂ rfl rfl fun hx => ⟨rfl, Sight.watched.inj hx, ?_⟩
    refine ⟨ha.buffers, ha.flow_eq, ?_, ha.connected_eq, ha.disconnected_eq, ha.stop_eq⟩
    dsimp only
    rw [Sight.watched.inj hx, ha.flow_eq, ha.interest_eq]

theorem loseUnless_mirror {w₁ : World ω₁} {w₂ : World ω₂} {alive₁ alive₂ : Bool} (hl₁ : c₁.onLink s₁)
    (hl₂ : c₂.onLink s₂) (h : Mirror s₁ s₂ w₁ c₁.world w₂ c₂.world (alive₁ = alive₂ ∧ Alike c₁ c₂)) :
    Mirror s₁ s₂ w₁ (if alive₁ then c₁ else c₁.lose S₁ now₁ s₁).world w₂
      (if alive₂ then c₂ else c₂.lose S₂ now₂ s₂).world
      (Paired s₁ s₂ (if alive₁ then c₁ else c₁.lose S₁ now₁ s₁) (if alive₂ then c₂ else c₂.lose S₂ now₂ s₂)) := by
  have hush {ω : Type} (S : System ω) (now : Nat) (c : Cycle ω) (s : Socket) (alive : Bool) :
      c.world.Hush (if alive then c else c.lose S now s).world := by
    cases alive with
    | true => exact .refl _
    | false => exact lose_hush S now c s
  refine h.trans (hush S₁ now₁ c₁ s₁ alive₁).goes (hush S₂ now₂ c₂ s₂ alive₂).goes fun hp => ?_
  obtain ⟨rfl, ha⟩ := hp
  cases alive₁ with
  | true => exact .of_hush (.refl _) (.refl _) (.up ha hl₁ hl₂)
  | false => exact lose_mirror c₁ c₂

theorem orLose_mirror {w₁ : World ω₁} {w₂ : World ω₂} {alive₁ alive₂ : Bool} {P R₁ R₂ : Prop}
    (h : Mirror s₁ s₂ w₁ c₁.world w₂ c₂.world (alive₁ = alive₂ ∧ P))
    (h₁ : alive₁ = false ∧ c₁' = c₁.lose S₁ now₁ s₁ ∨ alive₁ = true ∧ R₁)
    (h₂ : alive₂ = false ∧ c₂' = c₂.lose S₂ now₂ s₂ ∨ alive₂ = true ∧ R₂)
    (g₁ : R₁ → c₁.world.Goes c₁'.world) (g₂ : R₂ → c₂.world.Goes c₂'.world)
    (hr : P → R₁ → R₂ → Mirror s₁ s₂ c₁.world c₁'.world c₂.world c₂'.world (Paired s₁ s₂ c₁' c₂')) :
    Mirror s₁ s₂ w₁ c₁'.world w₂ c₂'.world (Paired s₁ s₂ c₁' c₂') := by
  have g₁ : c₁.world.Goes c₁'.world := by
    obtain ⟨-, rfl⟩ | ⟨-, h₁⟩ := h₁
    · exact (lose_hush S₁ now₁ c₁ s₁).goes
    · exact g₁ h₁
  have g₂ : c₂.world.Goes c₂'.world := by
    obtain ⟨-, rfl⟩ | ⟨-, h₂⟩ := h₂
    · exact (lose_hush S₂ now₂ c₂ s₂).goes
    · exact g₂ h₂
  refine h.trans g₁ g₂ fun hp => ?_
  obtain ⟨rfl, hP⟩ := hp
  obtain ⟨halive, rfl⟩ | ⟨halive, h₁⟩ := h₁
  · obtain ⟨-, rfl⟩ | ⟨halive₂, -⟩ := h₂
    · exact lose_mirror c₁ c₂
    · rw [halive] at halive₂
      exact absurd halive₂ nofun
  · obtain ⟨halive₂, -⟩ | ⟨-, h₂⟩ := h₂
    · rw [halive] at halive₂
      exact absurd halive₂ nofun
    · exact hr hP h₁ h₂

theorem sendAndWatch_mirror {anew : Bool} (ha : Alike c₁ c₂) (hl₁ : c₁.onLink s₁) (hl₂ : c₂.onLink s₂)
    (h₁ : c₁.sendAndWatch S₁ now₁ s₁ anew = .ok c₁') (h₂ : c₂.sendAndWatch S₂ now₂ s₂ anew = .ok c₂') :
    Mirror s₁ s₂ c₁.world c₁'.world c₂.world c₂'.world (Paired s₁ s₂ c₁' c₂') := by
  obtain ⟨alive₁, a₁, ht₁, h₁⟩ := sendAndWatch_ok h₁
  obtain ⟨alive₂, a₂, ht₂, h₂⟩ := sendAndWatch_ok h₂
  have hs₁ := (transmitIfQueued_stays ht₁).onLink hl₁
  have hs₂ := (transmitIfQueued_stays ht₂).onLink hl₂
  have watched {ω : Type} (S : System ω) (now : Nat) (c : Cycle ω) (s : Socket) {c' : Cycle ω}
      (h : c' = if (c.watch S s anew).1 then (c.watch S s anew).2 else (c.watch S s anew).2.lose S now s) :
      c.world.Goes c'.world := by
    subst h
    have hw : Carries c.onLink c (c.watch S s anew).2 := watch_carries c s anew
    split
    · exact hw.goes
    · exact (hw.trans (lose_carries now _ s)).goes
  refine orLose_mirror (transmitIfQueued_mirror ha ht₁ ht₂) h₁ h₂ (watched S₁ now₁ a₁ s₁) (watched S₂ now₂ a₂ s₂) ?_
  rintro ha rfl rfl
  exact loseUnless_mirror ((watch_stays S₁ a₁ s₁ anew).onLink hs₁) ((watch_stays S₂ a₂ s₂ anew).onLink hs₂)
    (watch_mirror anew ha)

theorem beforeWait_mirror (ha : Alike c₁ c₂) (hl₁ : c₁.onLink s₁) (hl₂ : c₂.onLink s₂)
    (h₁ : c₁.beforeWait S₁ now₁ = .ok c₁') (h₂ : c₂.beforeWait S₂ now₂ = .ok c₂') :
    Mirror s₁ s₂ c₁.world c₁'.world c₂.world c₂'.world (Paired s₁ s₂ c₁' c₂') := by
  obtain ⟨peer₁, hp₁⟩ := id hl₁
  obtain ⟨peer₂, hp₂⟩ := id hl₂
  obtain ⟨alive₁, anew₁, a₁, hr₁, h₁⟩ := beforeWait_connected hp₁ h₁
  obtain ⟨alive₂, anew₂, a₂, hr₂, h₂⟩ := beforeWait_connected hp₂ h₂
  have hs₁ := (receiveIfRoom_stays hr₁).onLink hl₁
  have hs₂ := (receiveIfRoom_stays hr₂).onLink hl₂
  refine orLose_mirror (receiveIfRoom_mirror ha hr₁ hr₂) h₁ h₂
    (fun h => (sendAndWatch_carries hs₁ h).goes) (fun h => (sendAndWatch_carries hs₂ h).goes) ?_
  rintro ⟨rfl, ha⟩ h₁ h₂
  exact sendAndWatch_mirror ha hs₁ hs₂ h₁ h₂

theorem receiveReady_mirror {e : Readiness} {alive₁ alive₂ : Bool} (ha : Alike c₁ c₂)
    (h₁ : c₁.receiveReady S₁ e s₁ = .ok (alive₁, c₁')) (h₂ : c₂.receiveReady S₂ e s₂ = .ok (alive₂, c₂')) :
    Mirror s₁ s₂ c₁.world c₁'.world c₂.world c₂'.world (alive₁ = alive₂ ∧ Alike c₁' c₂') := by
  unfold receiveReady at h₁ h₂
  rw [← ha.buffers.read.free_eq] at h₂
  split at h₁
  · rename_i hr
    rw [if_pos hr] at h₂
    exact receive_mirror ha h₁ h₂
  · rename_i hr
    rw [if_neg hr] at h₂
    obtain ⟨rfl, rfl⟩ := by simpa using h₁
    obtain ⟨rfl, rfl⟩ := by simpa using h₂
    exact .of_hush (.refl _) (.refl _) ⟨rfl, ha⟩

theorem transmitReady_mirror {alive₁ alive₂ : Bool} (ha : Alike c₁ c₂)
    (h₁ : c₁.transmitReady S₁ s₁ = .ok (alive₁, c₁')) (h₂ : c₂.transmitReady S₂ s₂ = .ok (alive₂, c₂')) :
    Mirror s₁ s₂ c₁.world c₁'.world c₂.world c₂'.world (alive₁ = alive₂ ∧ Alike c₁' c₂') := by
  have hf : Alike (c₁.setFlow { c₁.connection.flow with writeFull := false })
      (c₂.setFlow { c₂.connection.flow with writeFull := false }) := ha.setFlow (by rw [ha.flow_eq])
  have he : (c₁.setFlow { c₁.connection.flow with writeFull := false }).buffers.write.isEmpty =
      (c₂.setFlow { c₂.connection.flow with writeFull := false }).buffers.write.isEmpty := hf.buffers.write.isEmpty_eq
  unfold transmitReady at h₁ h₂
  dsimp only at h₁ h₂
  rw [← he] at h₂
  split at h₁
  · rename_i hz
    rw [if_pos hz] at h₂
    obtain ⟨rfl, rfl⟩ := by simpa using h₁
    obtain ⟨rfl, rfl⟩ := by simpa using h₂
    exact .of_hush (.refl _) (.refl _) ⟨rfl, hf⟩
  · rename_i hz
    rw [if_neg hz] at h₂
    have hm := transmit_mirror hf h₁ h₂
    exact hm

theorem hangUpOrSend_mirror {e : Readiness} (ha : Alike c₁ c₂) (hl₁ : c₁.onLink s₁) (hl₂ : c₂.onLink s₂)
    (h₁ : c₁.hangUpOrSend S₁ now₁ e s₁ = .ok c₁') (h₂ : c₂.hangUpOrSend S₂ now₂ e s₂ = .ok c₂') :
    Mirror s₁ s₂ c₁.world c₁'.world c₂.world c₂'.world (Paired s₁ s₂ c₁' c₂') := by
  have asked {ω : Type} (S : System ω) (w : World ω) (s : Socket) : w.Hush (w.call S (.takeError s)).2 :=
    World.call_hush w nofun fun _ => rfl
  unfold hangUpOrSend at h₁ h₂
  split at h₁
  · rename_i hhup
    rw [if_pos hhup] at h₂
    obtain rfl := Except.ok.inj h₁
    obtain rfl := Except.ok.inj h₂
    exact .after_hush (asked S₁ c₁.world s₁) (asked S₂ c₂.world s₂) (lose_mirror _ _)
  · rename_i hhup
    rw [if_neg hhup] at h₂
    split at h₁
    · rename_i hw
      rw [if_pos hw] at h₂
      obtain ⟨⟨alive₁, a₁⟩, ht₁, rfl⟩ := Fault.map_eq_ok.mp h₁
      obtain ⟨⟨alive₂, a₂⟩, ht₂, rfl⟩ := Fault.map_eq_ok.mp h₂
      exact loseUnless_mirror ((transmitReady_stays ht₁).onLink hl₁) ((transmitReady_stays ht₂).onLink hl₂)
        (transmitReady_mirror ha ht₁ ht₂)
    · rename_i hw
      rw [if_neg hw] at h₂
      obtain rfl := Except.ok.inj h₁
      obtain rfl := Except.ok.inj h₂
      exact .of_hush (.refl _) (.refl _) (.up ha hl₁ hl₂)

theorem onConnected_mirror {e : Readiness} (ha : Alike c₁ c₂) (hl₁ : c₁.onLink s₁) (hl₂ : c₂.onLink s₂)
    (h₁ : c₁.onConnected S₁ now₁ e s₁ = .ok c₁') (h₂ : c₂.onConnected S₂ now₂ e s₂ = .ok c₂') :
    Mirror s₁ s₂ c₁.world c₁'.world c₂.world c₂'.world (Paired s₁ s₂ c₁' c₂') := by
  obtain ⟨alive₁, a₁, hr₁, h₁⟩ := onConnected_ok h₁
  obtain ⟨alive₂, a₂, hr₂, h₂⟩ := onConnected_ok h₂
  have hs₁ := (receiveReady_stays hr₁).onLink hl₁
  have hs₂ := (receiveReady_stays hr₂).onLink hl₂
  exact orLose_mirror (receiveReady_mirror ha hr₁ hr₂) h₁ h₂
    (fun h => (hangUpOrSend_carries hs₁ h).goes) (fun h => (hangUpOrSend_carries hs₂ h).goes)
    fun ha h₁ h₂ => hangUpOrSend_mirror ha hs₁ hs₂ h₁ h₂

theorem Alike.withWorld (ha : Alike c₁ c₂) (w₁ : World ω₁) (w₂ : World ω₂) :
    Alike { c₁ with world := w₁ } { c₂ with world := w₂ } :=
  ⟨ha.buffers, ha.flow_eq, ha.interest_eq, ha.connected_eq, ha.disconnected_eq, ha.stop_eq⟩

theorem Paired.withWorld (h : Paired s₁ s₂ c₁ c₂) (w₁ : World ω₁) (w₂ : World ω₂) :
    Paired s₁ s₂ { c₁ with world := w₁ } { c₂ with world := w₂ } := by
  cases h with
  | up ha h₁ h₂ => exact .up (ha.withWorld w₁ w₂) h₁ h₂
  | down h₁ h₂ => exact .down h₁ h₂

theorem Paired.askStop (h : Paired s₁ s₂ c₁ c₂) (stop : Bool) :
    Paired s₁ s₂
      { c₁ with outcome := { c₁.outcome with stopRequested := c₁.outcome.stopRequested || stop } }
      { c₂ with outcome := { c₂.outcome with stopRequested := c₂.outcome.stopRequested || stop } } := by
  cases h with
  | up ha h₁ h₂ =>
    exact .up ⟨ha.buffers, ha.flow_eq, ha.interest_eq, ha.connected_eq, ha.disconnected_eq, by dsimp only; rw [ha.stop_eq]⟩ h₁ h₂
  | down h₁ h₂ => exact .down h₁ h₂

theorem onEvent_of_disconnected {ω : Type} {S : System ω} {now : Nat} {c : Cycle ω} {e : Readiness}
    (h : c.connection.state = .disconnected) : c.onEvent S now e = .ok c := by
  obtain ⟨retryAt, hp⟩ := Connection.state_eq_disconnected.mp h
  unfold onEvent
  rw [hp]

theorem onEvent_mirror {e : Readiness} (h : Paired s₁ s₂ c₁ c₂) (h₁ : c₁.onEvent S₁ now₁ e = .ok c₁')
    (h₂ : c₂.onEvent S₂ now₂ e = .ok c₂') :
    Mirror s₁ s₂ c₁.world c₁'.world c₂.world c₂'.world (Paired s₁ s₂ c₁' c₂') := by
  cases h with
  | up ha hl₁ hl₂ =>
    obtain ⟨peer₁, hp₁⟩ := id hl₁
    obtain ⟨peer₂, hp₂⟩ := id hl₂
    rw [onEvent, hp₁] at h₁
    rw [onEvent, hp₂] at h₂
    exact onConnected_mirror ha hl₁ hl₂ h₁ h₂
  | down hd₁ hd₂ =>
    rw [onEvent_of_disconnected hd₁] at h₁
    rw [onEvent_of_disconnected hd₂] at h₂
    obtain rfl := Except.ok.inj h₁
    obtain rfl := Except.ok.inj h₂
    exact .of_hush (.refl _) (.refl _) (.down hd₁ hd₂)

inductive Abreast (s₁ s₂ : Socket) (c₁ : Cycle ω₁) (c₂ : Cycle ω₂) : Prop
  | up (ha : Alike c₁ c₂) (h₁ : c₁.onLink s₁) (h₂ : c₂.onLink s₂)
  | apart (h₁ : c₁.connection.state ≠ .connected) (h₂ : c₂.connection.state ≠ .connected)

theorem afterEvents_hush {ω : Type} {S : System ω} {now : Nat} {c : Cycle ω} (h : c.connection.state = .disconnected) :
    c.world.Hush (c.afterEvents S now (World.startLookup S)).world := by
  obtain ⟨retryAt, hp⟩ := Connection.state_eq_disconnected.mp h
  have hq := World.startLookup_hush (S := S) c.world ⟨c.connection.settings.host, c.connection.settings.port⟩
  unfold afterEvents
  rw [hp]
  dsimp only
  split
  · split
    all_goals
      rename_i hl
      rw [hl] at hq
      exact hq.trans (World.record_hush _ rfl rfl)
  · exact .refl _

end Cycle

namespace Engine

open IrcLink.Cycle

variable {c₁ c₁' : Cycle ω₁} {c₂ c₂' : Cycle ω₂}

theorem collectAll_settled {ω : Type} (S : System ω) (now : Nat) {c : Cycle ω} (h : c.connection.phase ≠ .resolving) :
    ∃ w, collectAll S now c = { c with world := w } ∧ c.world.Hush w := by
  induction c using collectAll.induct S now with
  | case1 c world hc =>
    have hq := World.collect_hush (S := S) c.world
    rw [hc] at hq
    exact ⟨world, by rw [collectAll, hc], hq⟩
  | case2 c r world hc ih =>
    have hq := World.collect_hush (S := S) c.world
    rw [hc] at hq
    have hw : ({ c with world } : Cycle ω).connection.phase ≠ .resolving := h
    rw [onLookup_of_phase hw] at ih
    obtain ⟨w, hall, hh⟩ := ih hw
    exact ⟨w, by rw [collectAll, hc]; dsimp only; rw [onLookup_of_phase hw, hall], hq.trans hh⟩

theorem phase_of_onLink {ω : Type} {c : Cycle ω} {s : Socket} (h : c.onLink s) : c.connection.phase ≠ .resolving := by
  obtain ⟨peer, hp⟩ := h
  rw [hp]
  nofun

theorem phase_of_disconnected {ω : Type} {c : Cycle ω} (h : c.connection.state = .disconnected) :
    c.connection.phase ≠ .resolving := by
  obtain ⟨retryAt, hp⟩ := Connection.state_eq_disconnected.mp h
  simp [hp]

theorem onCompletion_settled {ω : Type} (S : System ω) (now : Nat) {c : Cycle ω} (h : c.connection.phase ≠ .resolving) :
    ∃ w, onCompletion S now c = { c with
        world := w
        outcome := { c.outcome with stopRequested := c.outcome.stopRequested || (c.world.takeStop S).1 } } ∧
      (c.world.takeStop S).2.Hush w := collectAll_settled S now h

theorem onCompletion_mirror (h : Paired s₁ s₂ c₁ c₂) :
    Mirror s₁ s₂ c₁.world (onCompletion S₁ now₁ c₁).world c₂.world (onCompletion S₂ now₂ c₂).world
      (Paired s₁ s₂ (onCompletion S₁ now₁ c₁) (onCompletion S₂ now₂ c₂)) := by
  have hphase : c₁.connection.phase ≠ .resolving ∧ c₂.connection.phase ≠ .resolving := by
    cases h with
    | up _ h₁ h₂ => exact ⟨phase_of_onLink h₁, phase_of_onLink h₂⟩
    | down h₁ h₂ => exact ⟨phase_of_disconnected h₁, phase_of_disconnected h₂⟩
  obtain ⟨w₁, hc₁, hw₁⟩ := onCompletion_settled S₁ now₁ hphase.1
  obtain ⟨w₂, hc₂, hw₂⟩ := onCompletion_settled S₂ now₂ hphase.2
  rw [hc₁, hc₂]
  refine .before_hush (.of_sight (World.takeStop_does S₁ c₁.world) (World.takeStop_does S₂ c₂.world) rfl rfl ?_) hw₁ hw₂
  intro hx
  rw [Sight.looked.inj hx]
  exact ⟨rfl, (h.askStop _).withWorld w₁ w₂⟩

theorem dispatch_mirror {e : Readiness} (h : Paired s₁ s₂ c₁ c₂) (h₁ : dispatch S₁ now₁ c₁ e = .ok c₁')
    (h₂ : dispatch S₂ now₂ c₂ e = .ok c₂') :
    Mirror s₁ s₂ c₁.world c₁'.world c₂.world c₂'.world (Paired s₁ s₂ c₁' c₂') := by
  have hp := h.withWorld (c₁.world.record S₁ (.handled e)) (c₂.world.record S₂ (.handled e))
  have hr₁ : c₁.world.Hush (c₁.world.record S₁ (.handled e)) := World.record_hush _ rfl rfl
  have hr₂ : c₂.world.Hush (c₂.world.record S₂ (.handled e)) := World.record_hush _ rfl rfl
  refine .after_hush hr₁ hr₂ ?_
  unfold dispatch at h₁ h₂
  split at h₁
  · rename_i htoken
    rw [if_pos htoken] at h₂
    exact onEvent_mirror hp h₁ h₂
  · rename_i htoken
    rw [if_neg htoken] at h₂
    split at h₁
    · rename_i htoken
      rw [if_pos htoken] at h₂
      obtain rfl := Except.ok.inj h₁
      obtain rfl := Except.ok.inj h₂
      exact onCompletion_mirror hp
    · rename_i htoken
      rw [if_neg htoken] at h₂
      obtain rfl := Except.ok.inj h₁
      obtain rfl := Except.ok.inj h₂
      exact .of_hush (.refl _) (.refl _) hp

theorem dispatchAll_goes {ω : Type} {S : System ω} {now : Nat} {c c' : Cycle ω} {events : List Readiness}
    (h : events.foldlM (dispatch S now) c = .ok c') : c.world.Goes c'.world :=
  Fault.foldlM_ok (R := fun c c' => c.world.Goes c'.world) (fun _ => .refl _)
    (fun h hrest => (dispatch_carries h).goes.trans hrest) h

theorem dispatchAll_mirror {events : List Readiness} (h : Paired s₁ s₂ c₁ c₂)
    (h₁ : events.foldlM (dispatch S₁ now₁) c₁ = .ok c₁') (h₂ : events.foldlM (dispatch S₂ now₂) c₂ = .ok c₂') :
    Mirror s₁ s₂ c₁.world c₁'.world c₂.world c₂'.world (Paired s₁ s₂ c₁' c₂') := by
  induction events generalizing c₁ c₂ with
  | nil =>
    obtain rfl := Except.ok.inj h₁
    obtain rfl := Except.ok.inj h₂
    exact .of_hush (.refl _) (.refl _) h
  | cons e events ih =>
    rw [List.foldlM_cons] at h₁ h₂
    obtain ⟨a₁, hd₁, h₁⟩ := Fault.bind_eq_ok.mp h₁
    obtain ⟨a₂, hd₂, h₂⟩ := Fault.bind_eq_ok.mp h₂
    exact (dispatch_mirror h hd₁ hd₂).trans (dispatchAll_goes h₁) (dispatchAll_goes h₂) fun hp => ih hp h₁ h₂

def after {ω : Type} (o : Outcome) (e : Engine ω) (b : Buffers) : Cycle ω := ⟨e.connection, b, e.world, o⟩

inductive Agree (s₁ s₂ : Socket) :
    Except WaitError Outcome × Engine ω₁ × Buffers → Except WaitError Outcome × Engine ω₂ × Buffers → Prop
  | failed {e : WaitError} {e₁ : Engine ω₁} {b₁ : Buffers} {e₂ : Engine ω₂} {b₂ : Buffers} :
      Agree s₁ s₂ (.error e, e₁, b₁) (.error e, e₂, b₂)
  | done {o₁ o₂ : Outcome} {e₁ : Engine ω₁} {b₁ : Buffers} {e₂ : Engine ω₂} {b₂ : Buffers}
      (h : Abreast s₁ s₂ (after o₁ e₁ b₁) (after o₂ e₂ b₂)) : Agree s₁ s₂ (.ok o₁, e₁, b₁) (.ok o₂, e₂, b₂)

theorem finish_goes {ω : Type} (S : System ω) (now : Nat) (c : Cycle ω) :
    c.world.Goes (finish S now {} c).2.1.world := by
  have hc : Carries c.onLink c (c.afterEvents S now (World.startLookup S)) := afterEvents_carries c
  exact hc.goes

theorem finish_mirror (h : Paired s₁ s₂ c₁ c₂) :
    Mirror s₁ s₂ c₁.world (finish S₁ now₁ {} c₁).2.1.world c₂.world (finish S₂ now₂ {} c₂).2.1.world
      (Agree s₁ s₂ (finish S₁ now₁ {} c₁) (finish S₂ now₂ {} c₂)) := by
  cases h with
  | up ha h₁ h₂ =>
    obtain ⟨peer₁, hp₁⟩ := id h₁
    obtain ⟨peer₂, hp₂⟩ := id h₂
    unfold finish
    rw [afterEvents_of_connected (Connection.state_eq_connected.mpr ⟨s₁, peer₁, hp₁⟩),
      afterEvents_of_connected (Connection.state_eq_connected.mpr ⟨s₂, peer₂, hp₂⟩)]
    exact .of_hush (.refl _) (.refl _) (.done (.up ha h₁ h₂))
  | down h₁ h₂ =>
    have hu₁ : c₁.connection.state ≠ .connected := by rw [h₁]; nofun
    have hu₂ : c₂.connection.state ≠ .connected := by rw [h₂]; nofun
    exact .of_hush (afterEvents_hush h₁) (afterEvents_hush h₂)
      (.done (.apart (afterEvents_unlinked S₁ now₁ _ hu₁).1.unlinked
        (afterEvents_unlinked S₂ now₂ _ hu₂).1.unlinked))

theorem attended_goes {ω : Type} {S : System ω} {now : Nat} {c : Cycle ω} {waited : Call.Waited}
    {r : Except WaitError Outcome × Engine ω × Buffers} (h : Attended S now c waited r) :
    c.world.Goes r.2.1.world := by
  cases h with
  | failed code => exact .refl _
  | interrupted => exact finish_goes S now c
  | events h =>
    exact (dispatchAll_goes h).trans (finish_goes S now _)

theorem attended_mirror {waited : Call.Waited} {r₁ : Except WaitError Outcome × Engine ω₁ × Buffers}
    {r₂ : Except WaitError Outcome × Engine ω₂ × Buffers} (h : Paired s₁ s₂ c₁ c₂) (h₁ : Attended S₁ now₁ c₁ waited r₁)
    (h₂ : Attended S₂ now₂ c₂ waited r₂) :
    Mirror s₁ s₂ c₁.world r₁.2.1.world c₂.world r₂.2.1.world (Agree s₁ s₂ r₁ r₂) := by
  cases h₁ with
  | failed code =>
    cases h₂
    exact .of_hush (.refl _) (.refl _) .failed
  | interrupted =>
    cases h₂
    exact finish_mirror h
  | events h₁ =>
    cases h₂ with
    | events h₂ =>
      exact (dispatchAll_mirror h h₁ h₂).trans (finish_goes S₁ now₁ _) (finish_goes S₂ now₂ _) finish_mirror

theorem attend_mirror {t₁ t₂ : Option Nat} {p₁ p₂ : Poller} {r₁ : Except WaitError Outcome × Engine ω₁ × Buffers}
    {r₂ : Except WaitError Outcome × Engine ω₂ × Buffers} (h : Paired s₁ s₂ c₁ c₂)
    (h₁ : attend S₁ now₁ t₁ p₁ c₁ = .ok r₁) (h₂ : attend S₂ now₂ t₂ p₂ c₂ = .ok r₂) :
    Mirror s₁ s₂ c₁.world r₁.2.1.world c₂.world r₂.2.1.world (Agree s₁ s₂ r₁ r₂) := by
  obtain ⟨x₁, w₁, hw₁, ha₁⟩ := attend_ok h₁
  obtain ⟨x₂, w₂, hw₂, ha₂⟩ := attend_ok h₂
  have hd₁ := World.wait_does S₁ hw₁
  have hd₂ := World.wait_does S₂ hw₂
  have hm : Mirror s₁ s₂ c₁.world w₁ c₂.world w₂ (x₁ = x₂) :=
    .of_sight hd₁ hd₂ rfl rfl fun hx => ⟨rfl, Sight.waited.inj hx⟩
  refine hm.trans (attended_goes ha₁) (attended_goes ha₂) fun hx => ?_
  subst hx
  exact attended_mirror (h.withWorld w₁ w₂) ha₁ ha₂

theorem attend_sees {ω : Type} {S : System ω} {now : Nat} {c : Cycle ω} {timeout : Option Nat} {poller : Poller}
    {r : Except WaitError Outcome × Engine ω × Buffers} (h : attend S now timeout poller c = .ok r) :
    c.world.Sees r.2.1.world := by
  obtain ⟨waited, w, hw, ha⟩ := attend_ok h
  exact (World.Sees.of_does (World.wait_does S hw) rfl).before (attended_goes ha)

theorem cycle_mirror {e₁ : Engine ω₁} {e₂ : Engine ω₂} {b₁ b₂ : Buffers} {t₁ t₂ : Option Nat}
    {r₁ : Except WaitError Outcome × Engine ω₁ × Buffers} {r₂ : Except WaitError Outcome × Engine ω₂ × Buffers}
    (h₁ : e₁.cycle S₁ b₁ now₁ t₁ = .ok r₁) (h₂ : e₂.cycle S₂ b₂ now₂ t₂ = .ok r₂)
    (ha : Alike (after {} e₁ b₁) (after {} e₂ b₂)) (hl₁ : (after {} e₁ b₁).onLink s₁) (hl₂ : (after {} e₂ b₂).onLink s₂) :
    Mirror s₁ s₂ e₁.world r₁.2.1.world e₂.world r₂.2.1.world (Agree s₁ s₂ r₁ r₂) := by
  obtain ⟨c₁, hb₁, h₁⟩ := Fault.bind_eq_ok.mp h₁
  obtain ⟨c₂, hb₂, h₂⟩ := Fault.bind_eq_ok.mp h₂
  exact (beforeWait_mirror ha hl₁ hl₂ hb₁ hb₂).trans (attend_sees h₁).goes (attend_sees h₂).goes
    fun hp => attend_mirror hp h₁ h₂

theorem cycle_sees {ω : Type} {S : System ω} {now : Nat} {e : Engine ω} {b : Buffers} {timeout : Option Nat}
    {r : Except WaitError Outcome × Engine ω × Buffers} (h : e.cycle S b now timeout = .ok r) :
    e.world.Sees r.2.1.world := by
  obtain ⟨c, hb, h⟩ := Fault.bind_eq_ok.mp h
  exact .after (beforeWait_carries hb).goes (attend_sees h)

end Engine

end

end IrcLink
