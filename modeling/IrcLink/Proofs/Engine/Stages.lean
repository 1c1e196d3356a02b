import IrcLink.Proofs.Engine.Steps

/-!
The turns that a connection takes in one cycle. It is made at most once and lost at most once, and in this order: what is
lost is not made again before the next cycle. Until it is made, the cycle leaves the buffers as they are.
-/

namespace IrcLink

namespace Cycle

variable {ω : Type} {S : System ω} {now : Nat} {c c' : Cycle ω} {s : Socket}

/-- Where the connection stands in a cycle that began with these buffers, linked or not. -/
inductive Stage (linked : Prop) (b : Buffers) (c : Cycle ω) : Prop
  | unlinked (hl : ¬linked) (hs : c.connection.state ≠ .connected) (hc : c.outcome.connected = false)
      (hd : c.outcome.disconnected = false) (hb : c.buffers = b)
  | up (hl : c.outcome.connected = true ↔ ¬linked) (hs : c.connection.state = .connected)
      (hd : c.outcome.disconnected = false)
  | down (hl : c.outcome.connected = true ↔ ¬linked) (hs : c.connection.state = .disconnected)
      (hd : c.outcome.disconnected = true)

structure Stays (c c' : Cycle ω) : Prop where
  phase_eq : c'.connection.phase = c.connection.phase
  outcome_eq : c'.outcome = c.outcome
  losses_eq : c'.connection.stats.losses = c.connection.stats.losses

theorem Stays.trans {c'' : Cycle ω} (h : Stays c c') (h' : Stays c' c'') : Stays c c'' :=
  ⟨h'.phase_eq.trans h.phase_eq, h'.outcome_eq.trans h.outcome_eq, h'.losses_eq.trans h.losses_eq⟩

theorem receive_stays {alive : Bool} (h : c.receive S s = .ok (alive, c')) : Stays c c' := by
  obtain ⟨t, -, h⟩ := Fault.bind_eq_ok.mp h
  obtain ⟨-, rfl⟩ := by simpa [pure, Except.pure] using h
  exact ⟨rfl, rfl, rfl⟩

theorem transmit_stays {alive : Bool} (h : c.transmit S s = .ok (alive, c')) : Stays c c' := by
  obtain ⟨t, -, h⟩ := Fault.bind_eq_ok.mp h
  obtain ⟨-, rfl⟩ := by simpa [pure, Except.pure] using h
  exact ⟨rfl, rfl, rfl⟩

theorem receiveIfRoom_stays {alive anew : Bool} (h : c.receiveIfRoom S s = .ok (alive, anew, c')) : Stays c c' := by
  unfold receiveIfRoom at h
  split at h
  · obtain ⟨-, -, rfl⟩ := by simpa using h
    exact ⟨rfl, rfl, rfl⟩
  · split at h
    · obtain ⟨-, -, rfl⟩ := by simpa using h
      exact ⟨rfl, rfl, rfl⟩
    · obtain ⟨⟨_, c₁⟩, hr, h⟩ := Fault.map_eq_ok.mp h
      obtain ⟨-, -, rfl⟩ := by simpa using h
      exact receive_stays hr

theorem transmitIfQueued_stays {alive : Bool} (h : c.transmitIfQueued S s = .ok (alive, c')) : Stays c c' := by
  unfold transmitIfQueued at h
  split at h
  · obtain ⟨-, rfl⟩ := by simpa using h
    exact ⟨rfl, rfl, rfl⟩
  · split at h
    · obtain ⟨-, rfl⟩ := by simpa using h
      exact ⟨rfl, rfl, rfl⟩
    · exact transmit_stays h

theorem watch_stays (S : System ω) (c : Cycle ω) (s : Socket) (anew : Bool) : Stays c (c.watch S s anew).2 := by
  unfold watch
  dsimp only
  split
  · split <;> exact ⟨rfl, rfl, rfl⟩
  · exact ⟨rfl, rfl, rfl⟩

theorem receiveReady_stays {e : Readiness} {alive : Bool} (h : c.receiveReady S e s = .ok (alive, c')) : Stays c c' := by
  unfold receiveReady at h
  split at h
  · exact receive_stays h
  · obtain ⟨-, rfl⟩ := by simpa using h
    exact ⟨rfl, rfl, rfl⟩

theorem transmitReady_stays {alive : Bool} (h : c.transmitReady S s = .ok (alive, c')) : Stays c c' := by
  have hf : Stays c (c.setFlow { c.connection.flow with writeFull := false }) := ⟨rfl, rfl, rfl⟩
  unfold transmitReady at h
  dsimp only at h
  split at h
  · obtain ⟨-, rfl⟩ := by simpa using h
    exact hf
  · exact hf.trans (transmit_stays h)

inductive StaysOrLoses (S : System ω) (now : Nat) (s : Socket) (c : Cycle ω) : Cycle ω → Prop
  | stays {c' : Cycle ω} (h : Stays c c') : StaysOrLoses S now s c c'
  | loses {c' : Cycle ω} (h : Stays c c') : StaysOrLoses S now s c (c'.lose S now s)

theorem StaysOrLoses.after {c'' : Cycle ω} (h : Stays c c') (h' : StaysOrLoses S now s c' c'') :
    StaysOrLoses S now s c c'' := by
  cases h' with
  | stays h' => exact .stays (h.trans h')
  | loses h' => exact .loses (h.trans h')

theorem sendAndWatch_staysOrLoses {anew : Bool} (h : c.sendAndWatch S now s anew = .ok c') :
    StaysOrLoses S now s c c' := by
  obtain ⟨alive, c₁, ht, h⟩ := sendAndWatch_ok h
  have h₁ := transmitIfQueued_stays ht
  obtain ⟨-, rfl⟩ | ⟨-, rfl⟩ := h
  · exact .loses h₁
  · have h₂ := h₁.trans (watch_stays S c₁ s anew)
    split
    · exact .stays h₂
    · exact .loses h₂

theorem beforeWait_staysOrLoses {peer : SocketAddress} (hphase : c.connection.phase = .connected s peer)
    (h : c.beforeWait S now = .ok c') : StaysOrLoses S now s c c' := by
  obtain ⟨alive, anew, c₁, hr, h⟩ := beforeWait_connected hphase h
  have h₁ := receiveIfRoom_stays hr
  obtain ⟨-, rfl⟩ | ⟨-, h⟩ := h
  · exact .loses h₁
  · exact .after h₁ (sendAndWatch_staysOrLoses h)

theorem onConnected_staysOrLoses {e : Readiness} (h : c.onConnected S now e s = .ok c') : StaysOrLoses S now s c c' := by
  obtain ⟨alive, c₁, hr, h⟩ := onConnected_ok h
  have h₁ := receiveReady_stays hr
  obtain ⟨-, rfl⟩ | ⟨-, h⟩ := h
  · exact .loses h₁
  · obtain ⟨-, rfl⟩ | ⟨-, -, rfl⟩ | ⟨-, -, alive, c₂, ht, rfl⟩ := hangUpOrSend_ok h
    · have hw : Stays c₁ { c₁ with world := (c₁.world.call S (.takeError s)).2 } := ⟨rfl, rfl, rfl⟩
      exact .loses (h₁.trans hw)
    · exact .stays h₁
    · have h₂ := h₁.trans (transmitReady_stays ht)
      split
      · exact .stays h₂
      · exact .loses h₂

/-- The outcome and the buffers are the same, and there is no link. -/
structure KeepsOut (c c' : Cycle ω) : Prop where
  outcome_eq : c'.outcome = c.outcome
  buffers_eq : c'.buffers = c.buffers
  losses_eq : c'.connection.stats.losses = c.connection.stats.losses
  unlinked : c'.connection.state ≠ .connected

theorem dialFirst_keepsOut (S : System ω) (now : Nat) (c : Cycle ω) (addresses : List SocketAddress) :
    KeepsOut c (c.dialFirst S now addresses) := by
  induction addresses generalizing c with
  | nil => exact ⟨rfl, rfl, rfl, nofun⟩
  | cons a rest ih =>
    unfold dialFirst
    dsimp only
    split
    · exact ⟨rfl, rfl, rfl, nofun⟩
    · rename_i world _
      obtain ⟨ho, hb, hl, hu⟩ := ih { c.countStats fun t => { t with dials := t.dials + 1 } with world }
      exact ⟨ho, hb, hl, hu⟩

theorem nextAddress_keepsOut (S : System ω) (now : Nat) {c : Cycle ω} (hu : c.connection.state ≠ .connected) :
    KeepsOut c (c.nextAddress S now) := by
  unfold nextAddress
  split
  · exact dialFirst_keepsOut S now c _
  · rename_i s _ rest _ _
    obtain ⟨ho, hb, hl, hu⟩ := dialFirst_keepsOut S now { c with world := c.world.abandon S s } rest
    exact ⟨ho, hb, hl, hu⟩
  · exact ⟨rfl, rfl, rfl, hu⟩

theorem nextAddress_world_keepsOut (S : System ω) (now : Nat) {c : Cycle ω} (hu : c.connection.state ≠ .connected)
    (world : World ω) : KeepsOut c ({ c with world }.nextAddress S now) := by
  have hw : ({ c with world } : Cycle ω).connection.state ≠ .connected := hu
  obtain ⟨ho, hb, hl, hu⟩ := nextAddress_keepsOut S now hw
  exact ⟨ho, hb, hl, hu⟩

theorem onConnecting_cases (S : System ω) (now : Nat) {c : Cycle ω} (hu : c.connection.state ≠ .connected)
    (e : Readiness) (s : Socket) (a : SocketAddress) :
    KeepsOut c (c.onConnecting S now e s a) ∨ ∃ world, c.onConnecting S now e s a = { c with world }.connect s a := by
  unfold onConnecting
  split
  · exact .inl (nextAddress_world_keepsOut S now hu _)
  · split
    · split
      · exact .inl ⟨rfl, rfl, rfl, hu⟩
      · exact .inl (nextAddress_world_keepsOut S now hu _)
      · split
        · exact .inr ⟨_, rfl⟩
        · exact .inl (nextAddress_world_keepsOut S now hu _)
    · exact .inl ⟨rfl, rfl, rfl, hu⟩

theorem onLookup_of_phase {r : Resolution} (h : c.connection.phase ≠ .resolving) : c.onLookup now r = c := by
  unfold onLookup
  split
  · rename_i hp
    exact absurd hp h
  · rename_i hp _
    exact absurd hp h
  · rfl

namespace Stage

variable {linked : Prop} {b : Buffers}

theorem start (c : Cycle ω) (h : c.outcome = {}) : Stage (c.connection.state = .connected) c.buffers c := by
  by_cases hs : c.connection.state = .connected
  · exact .up (by simp [h, hs]) hs (by rw [h])
  · exact .unlinked hs hs (by rw [h]) (by rw [h]) rfl

theorem congr (h : Stage linked b c) (hc : c'.connection = c.connection) (hb : c'.buffers = c.buffers)
    (hup : c'.outcome.connected = c.outcome.connected) (hdown : c'.outcome.disconnected = c.outcome.disconnected) :
    Stage linked b c' := by
  cases h with
  | unlinked hl hs hu hd hbuffers =>
    exact .unlinked hl (by rw [hc]; exact hs) (hup.trans hu) (hdown.trans hd) (hb.trans hbuffers)
  | up hl hs hd => exact .up (by rw [hup]; exact hl) (by rw [hc]; exact hs) (hdown.trans hd)
  | down hl hs hd => exact .down (by rw [hup]; exact hl) (by rw [hc]; exact hs) (hdown.trans hd)

theorem withWorld (h : Stage linked b c) (world : World ω) : Stage linked b { c with world } := h.congr rfl rfl rfl rfl

theorem state_eq_of_phase {c c' : Connection} (h : c'.phase = c.phase) : c'.state = c.state := by
  rw [Connection.state, Connection.state, h]

theorem staysOrLoses (h : Stage linked b c) (hs : c.connection.state = .connected)
    (h' : StaysOrLoses S now s c c') : Stage linked b c' := by
  cases h with
  | unlinked _ hu => exact absurd hs hu
  | down _ hu => rw [hs] at hu; simp at hu
  | up hl _ hd =>
    cases h' with
    | stays h' =>
      refine .up ?_ ((state_eq_of_phase h'.phase_eq).trans hs) (by rw [h'.outcome_eq, hd])
      rwa [h'.outcome_eq]
    | @loses c₁ h' =>
      refine .down ?_ rfl rfl
      change c₁.outcome.connected = true ↔ ¬linked
      rwa [h'.outcome_eq]

theorem beforeWait (h : Stage linked b c) (hw : c.beforeWait S now = .ok c') : Stage linked b c' := by
  by_cases hs : c.connection.state = .connected
  · obtain ⟨s, peer, hphase⟩ := Connection.state_eq_connected.mp hs
    exact h.staysOrLoses hs (beforeWait_staysOrLoses hphase hw)
  · obtain rfl := beforeWait_unlinked hs hw
    exact h

theorem onEvent {e : Readiness} (h : Stage linked b c) (hw : c.onEvent S now e = .ok c') : Stage linked b c' := by
  unfold Cycle.onEvent at hw
  split at hw
  · rename_i s a rest deadline hphase
    obtain rfl := Except.ok.inj hw
    have hu : c.connection.state = .connecting := by rw [Connection.state, hphase]
    cases h with
    | up _ hs => rw [hu] at hs; simp at hs
    | down _ hs => rw [hu] at hs; simp at hs
    | unlinked hl hs hc hd hb =>
      obtain ⟨ho, hb', -, hu'⟩ | ⟨world, hw⟩ := onConnecting_cases S now hs e s a
      · exact .unlinked hl hu' (by rw [ho, hc]) (by rw [ho, hd]) (hb'.trans hb)
      · rw [hw]
        exact .up ⟨fun _ => hl, fun _ => rfl⟩ rfl hd
  · rename_i s peer hphase
    exact h.staysOrLoses (Connection.state_eq_connected.mpr ⟨s, peer, hphase⟩) (onConnected_staysOrLoses hw)
  · obtain rfl := Except.ok.inj hw
    exact h

theorem onLookup (h : Stage linked b c) (r : Resolution) : Stage linked b (c.onLookup now r) := by
  cases h with
  | unlinked hl hs hc hd hb =>
    unfold Cycle.onLookup
    split
    · exact .unlinked hl nofun hc hd hb
    · exact .unlinked hl nofun hc hd hb
    · exact .unlinked hl hs hc hd hb
  | up hl hs hd =>
    rw [onLookup_of_phase fun hp => by rw [Connection.state, hp] at hs; simp at hs]
    exact .up hl hs hd
  | down hl hs hd =>
    rw [onLookup_of_phase fun hp => by rw [Connection.state, hp] at hs; simp at hs]
    exact .down hl hs hd

end Stage

end Cycle

namespace Engine

open IrcLink.Cycle

variable {ω : Type} {S : System ω} {now : Nat} {c c' : Cycle ω} {linked : Prop} {b : Buffers}

theorem collectAll_stage (h : Stage linked b c) : Stage linked b (collectAll S now c) := by
  induction c using collectAll.induct S now with
  | case1 c world hc =>
    rw [collectAll, hc]
    exact h.withWorld world
  | case2 c r world hc ih =>
    rw [collectAll, hc]
    exact ih ((h.withWorld world).onLookup r)

theorem onCompletion_stage (h : Stage linked b c) : Stage linked b (onCompletion S now c) :=
  collectAll_stage (h.congr rfl rfl rfl rfl)

theorem dispatch_stage {e : Readiness} (h : Stage linked b c) (hd : dispatch S now c e = .ok c') : Stage linked b c' := by
  have hr := h.withWorld (c.world.record S (.handled e))
  unfold dispatch at hd
  split at hd
  · exact hr.onEvent hd
  · split at hd
    · obtain rfl := Except.ok.inj hd
      exact onCompletion_stage hr
    · obtain rfl := Except.ok.inj hd
      exact hr

theorem dispatchAll_stage {events : List Readiness} (h : Stage linked b c)
    (hd : events.foldlM (dispatch S now) c = .ok c') : Stage linked b c' :=
  Fault.foldlM_ok (R := fun c c' => Stage linked b c → Stage linked b c') (fun _ h => h)
    (fun hd hrest h => hrest (dispatch_stage h hd)) hd h

/-- There is no link, and of the ones before nothing new is reported. -/
structure Unmade (c c' : Cycle ω) : Prop where
  unlinked : c'.connection.state ≠ .connected
  connected_eq : c'.outcome.connected = c.outcome.connected
  disconnected_eq : c'.outcome.disconnected = c.outcome.disconnected
  losses_eq : c'.connection.stats.losses = c.connection.stats.losses

namespace Unmade

theorem refl (h : c.connection.state ≠ .connected) : Unmade c c := ⟨h, rfl, rfl, rfl⟩

theorem trans {c'' : Cycle ω} (h : Unmade c c') (h' : Unmade c' c'') : Unmade c c'' :=
  ⟨h'.unlinked, h'.connected_eq.trans h.connected_eq, h'.disconnected_eq.trans h.disconnected_eq,
    h'.losses_eq.trans h.losses_eq⟩

theorem of_keepsOut (h : KeepsOut c c') : Unmade c c' :=
  ⟨h.unlinked, by rw [h.outcome_eq], by rw [h.outcome_eq], h.losses_eq⟩

end Unmade

theorem onLookup_unmade (h : c.connection.state ≠ .connected) (r : Resolution) : Unmade c (c.onLookup now r) := by
  unfold Cycle.onLookup
  split
  · exact ⟨nofun, rfl, rfl, rfl⟩
  · exact ⟨nofun, rfl, rfl, rfl⟩
  · exact .refl h

theorem collectAll_unmade (h : c.connection.state ≠ .connected) : Unmade c (collectAll S now c) := by
  induction c using collectAll.induct S now with
  | case1 c world hc =>
    rw [collectAll, hc]
    exact ⟨h, rfl, rfl, rfl⟩
  | case2 c r world hc ih =>
    have hw : Unmade c { c with world } := ⟨h, rfl, rfl, rfl⟩
    have hl : Unmade c ({ c with world }.onLookup now r) := hw.trans (onLookup_unmade hw.unlinked r)
    rw [collectAll, hc]
    exact hl.trans (ih hl.unlinked)

theorem onCompletion_unmade (h : c.connection.state ≠ .connected) : Unmade c (onCompletion S now c) := by
  have hasked : Unmade c { c with
      world := (c.world.takeStop S).2
      outcome := { c.outcome with stopRequested := c.outcome.stopRequested || (c.world.takeStop S).1 } } :=
    ⟨h, rfl, rfl, rfl⟩
  exact hasked.trans (collectAll_unmade hasked.unlinked)

theorem onEvent_cases {e : Readiness} (hu : c.connection.state ≠ .connected) (hd : c.onEvent S now e = .ok c') :
    Unmade c c' ∨ c.connection.state = .connecting ∧ ∃ s peer world, c' = { c with world }.connect s peer := by
  unfold Cycle.onEvent at hd
  split at hd
  · rename_i s a rest deadline hphase
    obtain rfl := Except.ok.inj hd
    obtain hk | ⟨world, hk⟩ := onConnecting_cases S now hu e s a
    · exact .inl (.of_keepsOut hk)
    · exact .inr ⟨by rw [Connection.state, hphase], s, a, world, hk⟩
  · rename_i s peer hphase
    exact absurd (Connection.state_eq_connected.mpr ⟨s, peer, hphase⟩) hu
  · obtain rfl := Except.ok.inj hd
    exact .inl (.refl hu)

theorem dispatch_cases {e : Readiness} (hu : c.connection.state ≠ .connected) (hd : dispatch S now c e = .ok c') :
    Unmade c c' ∨ c.connection.state = .connecting ∧ ∃ s peer world, c' = { c with world }.connect s peer := by
  have hrecorded : Unmade c { c with world := c.world.record S (.handled e) } := ⟨hu, rfl, rfl, rfl⟩
  unfold dispatch at hd
  split at hd
  · obtain hkept | hmade := onEvent_cases hrecorded.unlinked hd
    · exact .inl (hrecorded.trans hkept)
    · exact .inr hmade
  · split at hd
    · obtain rfl := Except.ok.inj hd
      exact .inl (hrecorded.trans (onCompletion_unmade hrecorded.unlinked))
    · obtain rfl := Except.ok.inj hd
      exact .inl hrecorded

theorem dispatchAll_makes {events : List Readiness} (hu : c.connection.state ≠ .connected)
    (hc : c.outcome.connected = false) (hd : events.foldlM (dispatch S now) c = .ok c')
    (hc' : c'.outcome.connected = true) :
    ∃ before event left c₀ c₁, events = before ++ event :: left ∧ before.foldlM (dispatch S now) c = .ok c₀ ∧
      c₀.connection.state ≠ .connected ∧ dispatch S now c₀ event = .ok c₁ ∧ c₁.connection.state = .connected := by
  induction events generalizing c with
  | nil =>
    obtain rfl := Except.ok.inj hd
    rw [hc] at hc'
    exact absurd hc' nofun
  | cons e events ih =>
    rw [List.foldlM_cons] at hd
    obtain ⟨c₁, h₁, hd⟩ := Fault.bind_eq_ok.mp hd
    obtain ⟨hu₁, hc₁, -⟩ | ⟨-, s, peer, world, hmade⟩ := dispatch_cases hu h₁
    · obtain ⟨before, event, left, c₀, c₂, rfl, hb, hu₀, he, hs⟩ := ih hu₁ (hc₁.trans hc) hd
      exact ⟨e :: before, event, left, c₀, c₂, rfl, by rw [List.foldlM_cons, h₁]; exact hb, hu₀, he, hs⟩
    · exact ⟨[], e, events, c, c₁, rfl, rfl, hu, h₁, by rw [hmade]; rfl⟩

theorem dispatch_makes_afresh {e : Readiness} (hstage : Stage linked b c) (hu : c.connection.state ≠ .connected)
    (hd : dispatch S now c e = .ok c') (hs : c'.connection.state = .connected) :
    c'.buffers = b ∧ c'.connection.flow = {} ∧ c'.connection.writeInterest = false ∧ c'.outcome.connected = true ∧
      c'.outcome.disconnected = false := by
  obtain hun | ⟨hstate, s, peer, world, rfl⟩ := dispatch_cases hu hd
  · exact absurd hs hun.unlinked
  cases hstage with
  | unlinked _ _ _ hd hb => exact ⟨hb, rfl, rfl, rfl, hd⟩
  | up _ hs => exact absurd hs hu
  | down _ hs =>
    rw [hstate] at hs
    exact absurd hs nofun

structure Turned (linked : Prop) (b : Buffers) (c : Cycle ω) : Prop where
  state_iff : c.connection.state = .connected ↔
    (linked ∨ c.outcome.connected = true) ∧ c.outcome.disconnected = false
  unlinked : ¬linked → c.outcome.connected = false → c.outcome.disconnected = false ∧ c.buffers = b
  not_linked : c.outcome.connected = true → ¬linked

theorem Turned.balance [Decidable linked] (h : Turned linked b c) :
    (if linked then 1 else 0) + (if c.outcome.connected then 1 else 0) =
      (if c.outcome.disconnected then 1 else 0) + if c.connection.state = .connected then 1 else 0 := by
  obtain ⟨hstate, hun, hnot⟩ := h
  simp only [hstate]
  by_cases hl : linked
  · have hmade : c.outcome.connected = false := Bool.eq_false_iff.mpr fun hmade => hnot hmade hl
    cases hlost : c.outcome.disconnected <;> simp [hl, hmade]
  · cases hmade : c.outcome.connected with
    | false => simp [hl, (hun hl hmade).1]
    | true => cases hlost : c.outcome.disconnected <;> simp [hl]

theorem afterEvents_of_connected (h : c.connection.state = .connected) (start : Cycle.Start ω) :
    c.afterEvents S now start = c := by
  obtain ⟨s, peer, hphase⟩ := Connection.state_eq_connected.mp h
  unfold afterEvents
  rw [hphase]

theorem afterEvents_unlinked (S : System ω) (now : Nat) (start : Cycle.Start ω) (h : c.connection.state ≠ .connected) :
    Unmade c (c.afterEvents S now start) ∧ (c.afterEvents S now start).buffers = c.buffers := by
  have hk := nextAddress_keepsOut S now h
  unfold afterEvents
  dsimp only
  split
  · split
    · split
      · exact ⟨⟨nofun, rfl, rfl, rfl⟩, rfl⟩
      · exact ⟨⟨nofun, rfl, rfl, rfl⟩, rfl⟩
    · exact ⟨.refl h, rfl⟩
  · exact ⟨.of_keepsOut hk, hk.buffers_eq⟩
  · split
    · exact ⟨.of_keepsOut hk, hk.buffers_eq⟩
    · exact ⟨.refl h, rfl⟩
  · exact ⟨.refl h, rfl⟩

theorem afterEvents_connected (S : System ω) (now : Nat) (start : Cycle.Start ω) (c : Cycle ω) :
    (c.afterEvents S now start).outcome.connected = c.outcome.connected := by
  by_cases h : c.connection.state = .connected
  · rw [afterEvents_of_connected h]
  · exact (afterEvents_unlinked S now start h).1.connected_eq

theorem afterEvents_turned (h : Stage linked b c) (start : Cycle.Start ω) :
    Turned linked b (c.afterEvents S now start) := by
  have either (hl : c.outcome.connected = true ↔ ¬linked) : linked ∨ c.outcome.connected = true :=
    (Classical.em linked).imp_right hl.mpr
  cases h with
  | unlinked hl hs hc hd hb =>
    obtain ⟨⟨hs', hc', hd', -⟩, hb'⟩ := afterEvents_unlinked S now start hs
    refine ⟨⟨fun h => absurd h hs', fun h => ?_⟩, fun _ _ => ⟨hd'.trans hd, hb'.trans hb⟩, fun _ => hl⟩
    rw [hc', hc] at h
    exact absurd h.1 (by simpa using hl)
  | up hl hs hd =>
    rw [afterEvents_of_connected hs]
    refine ⟨⟨fun _ => ⟨either hl, hd⟩, fun _ => hs⟩, fun hn hc => ?_, hl.mp⟩
    rw [hl.mpr hn] at hc
    exact absurd hc nofun
  | down hl hs hd =>
    have hu : c.connection.state ≠ .connected := by rw [hs]; nofun
    obtain ⟨⟨hs', hc', hd', -⟩, -⟩ := afterEvents_unlinked S now start hu
    refine ⟨⟨fun h => absurd h hs', fun h => ?_⟩, fun hn hc => ?_, fun hc => hl.mp (hc'.symm.trans hc)⟩
    · rw [hd', hd] at h
      exact absurd h.2 nofun
    · rw [hc', hl.mpr hn] at hc
      exact absurd hc nofun

theorem attend_turned {e' : Engine ω} {b' : Buffers} {timeout : Option Nat} {poller : Poller} {o : Outcome}
    (hc : Stage linked b c) (h : attend S now timeout poller c = .ok (.ok o, e', b')) : Turned linked b ⟨e'.connection, b', e'.world, o⟩ := by
  obtain ⟨waited, world, -, ha⟩ := attend_ok h
  have hworld := hc.withWorld world
  cases ha with
  | interrupted => exact afterEvents_turned hworld _
  | events hc' => exact afterEvents_turned (dispatchAll_stage hworld hc') _

theorem cycle_turned {e e' : Engine ω} {b' : Buffers} {timeout : Option Nat} {o : Outcome}
    (h : e.cycle S b now timeout = .ok (.ok o, e', b')) :
    Turned (e.connection.state = .connected) b ⟨e'.connection, b', e'.world, o⟩ := by
  obtain ⟨c, hc, h⟩ := Fault.bind_eq_ok.mp h
  exact attend_turned ((Stage.start _ rfl).beforeWait hc) h

end Engine

end IrcLink
