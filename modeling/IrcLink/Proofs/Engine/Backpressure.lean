import IrcLink.Proofs.Engine.Batch
import IrcLink.Proofs.Engine.Wakeups

/-!
Back pressure on the peer. A read that stops because the ring is full leaves the rest with the socket, which reports nothing
more of it until it is watched anew, and leaves a mark for that. The next cycle that begins with room in the ring takes the
mark away, and watches the socket anew in place of reading. Within a cycle nothing leaves the ring, so no read comes in
between; this is why a read that finds the socket empty never takes away a mark.
-/

namespace IrcLink

def Event.isSaturation : Event → Bool
  | .receiveEnded .ring => true
  | _ => false

def Event.isReading : Event → Bool
  | .call (.read _ _) _ => true
  | .receiveEnded _ => true
  | _ => false

theorem Event.isSaturation_of_isReading {e : Event} (h : e.isReading = false) : e.isSaturation = false := by
  cases e with
  | receiveEnded stop => simp [isReading] at h
  | _ => rfl

theorem Event.isSaturation_of_stream {e : Event} {s : Socket} (h : e.stream? = some s) : e.isSaturation = false := by
  cases e with
  | receiveEnded stop => simp [stream?] at h
  | _ => rfl

theorem Event.countP_isSaturation {es : List Event} (h : ∀ e ∈ es, e.isSaturation = false) :
    es.countP (·.isSaturation) = 0 := by
  apply List.countP_eq_zero.mpr
  intro e he
  simp [h e he]

def Connection.mark (c : Connection) : Nat := if c.flow.readFull then 1 else 0

namespace Cycle

variable {ω : Type} {S : System ω} {now : Nat} {c c' c'' : Cycle ω} {s : Socket} {peer : SocketAddress}
  {es es' : List Event} {begins up : Prop}

/-- Reads nothing, and leaves alone what reads have left. -/
structure Aloof (c : Cycle ω) (es : List Event) (c' : Cycle ω) : Prop where
  does : c.world.Does es c'.world
  reads : ∀ e ∈ es, e.isReading = false
  full_eq : c'.connection.flow.readFull = c.connection.flow.readFull
  rearms_eq : c'.connection.stats.rearms = c.connection.stats.rearms
  phase_eq : c'.connection.phase = c.connection.phase
  ring_eq : c'.buffers.read = c.buffers.read

namespace Aloof

theorem refl (c : Cycle ω) : Aloof c [] c := ⟨.refl _, nofun, rfl, rfl, rfl, rfl⟩

theorem trans (h : Aloof c es c') (h' : Aloof c' es' c'') : Aloof c (es ++ es') c'' := by
  constructor
  · exact h.does.trans h'.does
  · intro e he
    obtain he | he := List.mem_append.mp he
    · exact h.reads e he
    · exact h'.reads e he
  · rw [h'.full_eq, h.full_eq]
  · rw [h'.rearms_eq, h.rearms_eq]
  · rw [h'.phase_eq, h.phase_eq]
  · rw [h'.ring_eq, h.ring_eq]

theorem of_only (h : World.Only (·.isReading = false) c.world c'.world)
    (hf : c'.connection.flow.readFull = c.connection.flow.readFull)
    (hs : c'.connection.stats.rearms = c.connection.stats.rearms) (hp : c'.connection.phase = c.connection.phase)
    (hb : c'.buffers.read = c.buffers.read) : ∃ es, Aloof c es c' := by
  obtain ⟨es, hd, he⟩ := h
  exact ⟨es, hd, he, hf, hs, hp, hb⟩

end Aloof

theorem transmit_aloof {alive : Bool} (h : c.transmit S s = .ok (alive, c')) : ∃ es, Aloof c es c' := by
  obtain ⟨t, ht, -, rfl⟩ := transmit_ok h
  apply Aloof.of_only
  · exact (Transfer.transmit_writes (P := (·.isReading = false)) (fun _ _ => rfl) ht).only
  · cases t.stop <;> rfl
  all_goals rfl

theorem transmitIfQueued_aloof {alive : Bool} (h : c.transmitIfQueued S s = .ok (alive, c')) : ∃ es, Aloof c es c' := by
  unfold transmitIfQueued at h
  split at h
  · obtain ⟨-, rfl⟩ := by simpa using h
    exact Aloof.of_only (.refl _) rfl rfl rfl rfl
  · split at h
    · obtain ⟨-, rfl⟩ := by simpa using h
      exact ⟨[], .refl _⟩
    · exact transmit_aloof h

theorem transmitReady_aloof {alive : Bool} (h : c.transmitReady S s = .ok (alive, c')) : ∃ es, Aloof c es c' := by
  have hf : ∃ es, Aloof c es (c.setFlow { c.connection.flow with writeFull := false }) :=
    Aloof.of_only (.refl _) rfl rfl rfl rfl
  unfold transmitReady at h
  dsimp only at h
  split at h
  · obtain ⟨-, rfl⟩ := by simpa using h
    exact hf
  · obtain ⟨es, hf⟩ := hf
    obtain ⟨es', ht⟩ := transmit_aloof h
    exact ⟨es ++ es', hf.trans ht⟩

theorem watch_aloof (S : System ω) (c : Cycle ω) (s : Socket) (anew : Bool) : ∃ es, Aloof c es (c.watch S s anew).2 ∧
    ((c.watch S s anew).1 = true → anew = true → ∃ i, Event.call (.reregister s socketToken i) (.ok ()) ∈ es) := by
  have hd := World.call_does S c.world
    (c := .reregister s socketToken (if c.connection.flow.writeFull then .readWrite else .read)) nofun
  unfold watch
  dsimp only
  split
  · split
    all_goals
      rename_i h
      rw [h] at hd
      refine ⟨_, ⟨hd, ?_, rfl, rfl, rfl, rfl⟩, ?_⟩
    · simp [Event.isReading]
    · exact fun _ _ => ⟨_, List.mem_singleton_self _⟩
    · simp [Event.isReading]
    · exact nofun
  · rename_i hneed
    refine ⟨[], .refl c, fun _ hanew => ?_⟩
    simp [hanew] at hneed

theorem sendAndWatch_aloof {anew : Bool} (h : c.sendAndWatch S now s anew = .ok c') : ∃ c₁ es, Aloof c es c₁ ∧
    (c' = c₁.lose S now s ∨ c' = c₁ ∧ (anew = true → ∃ i, Event.call (.reregister s socketToken i) (.ok ()) ∈ es)) := by
  obtain ⟨alive, c₁, ht, h⟩ := sendAndWatch_ok h
  obtain ⟨es, hsent⟩ := transmitIfQueued_aloof ht
  obtain ⟨-, rfl⟩ | ⟨-, rfl⟩ := h
  · exact ⟨c₁, es, hsent, .inl rfl⟩
  · obtain ⟨es', hwatch, hanew⟩ := watch_aloof S c₁ s anew
    refine ⟨_, _, hsent.trans hwatch, ?_⟩
    split
    · rename_i hok
      refine .inr ⟨rfl, fun ha => ?_⟩
      obtain ⟨i, hi⟩ := hanew hok ha
      exact ⟨i, List.mem_append_right _ hi⟩
    · exact .inl rfl

theorem hangUpOrSend_aloof {e : Readiness} (h : c.hangUpOrSend S now e s = .ok c') :
    ∃ c₁ es, Aloof c es c₁ ∧ (c' = c₁.lose S now s ∨ c' = c₁) := by
  obtain ⟨-, rfl⟩ | ⟨-, -, rfl⟩ | ⟨-, -, alive, c₁, ht, rfl⟩ := hangUpOrSend_ok h
  · have hd := World.call_does S c.world (c := .takeError s) nofun
    refine ⟨{ c with world := (c.world.call S (.takeError s)).2 }, _, ⟨hd, ?_, rfl, rfl, rfl, rfl⟩, .inl rfl⟩
    simp [Event.isReading]
  · exact ⟨_, [], .refl _, .inr rfl⟩
  · obtain ⟨es, hsent⟩ := transmitReady_aloof ht
    refine ⟨c₁, es, hsent, ?_⟩
    cases alive
    · exact .inl rfl
    · exact .inr rfl

/-- What a part of a cycle does about the mark. Only what begins a cycle can take it away, and does so whenever there is room;
if the link is up at the end, its socket is then watched anew. -/
inductive Pressure (s : Socket) (begins up : Prop) (c : Cycle ω) (es : List Event) (c' : Cycle ω) : Prop
  | same (hn : es.countP (·.isSaturation) = 0)
      (hfull : c'.connection.flow.readFull = c.connection.flow.readFull)
      (hrearms : c'.connection.stats.rearms = c.connection.stats.rearms)
      (hroom : begins → c.connection.flow.readFull = true → c.buffers.read.free = 0)
  | built (hn : es.countP (·.isSaturation) = 1) (hclear : c.connection.flow.readFull = false)
      (hfull : c'.connection.flow.readFull = true) (hrearms : c'.connection.stats.rearms = c.connection.stats.rearms)
  | relieved (hbegins : begins) (hreads : ∀ e ∈ es, e.isReading = false) (hfull : c.connection.flow.readFull = true)
      (hroom : c.buffers.read.free ≠ 0) (hclear : c'.connection.flow.readFull = false)
      (hrearms : c'.connection.stats.rearms = c.connection.stats.rearms + 1)
      (hwatched : up → ∃ i, Event.call (.reregister s socketToken i) (.ok ()) ∈ es)

namespace Pressure

theorem balance (h : Pressure s begins up c es c') : c'.connection.stats.rearms + c'.connection.mark =
    c.connection.stats.rearms + c.connection.mark + es.countP (·.isSaturation) := by
  cases h with
  | same hn hfull hrearms => simp [Connection.mark, hn, hfull, hrearms]
  | built hn hclear hfull hrearms => simp [Connection.mark, hn, hclear, hfull, hrearms]
  | relieved _ hreads hfull _ hclear hrearms =>
    have hn := Event.countP_isSaturation fun e he => Event.isSaturation_of_isReading (hreads e he)
    simp [Connection.mark, hn, hfull, hclear, hrearms]

theorem of_aloof (ha : Aloof c es c') (hroom : c.connection.flow.readFull = true → c.buffers.read.free = 0) :
    Pressure s begins up c es c' := by
  have hn := Event.countP_isSaturation fun e he => Event.isSaturation_of_isReading (ha.reads e he)
  exact .same hn ha.full_eq ha.rearms_eq fun _ => hroom

theorem after (ha : Aloof c es c') (h : Pressure s begins up c' es' c'') : Pressure s begins up c (es ++ es') c'' := by
  have hn' := Event.countP_isSaturation fun e he => Event.isSaturation_of_isReading (ha.reads e he)
  have hcount : (es ++ es').countP (·.isSaturation) = es'.countP (·.isSaturation) := by
    rw [List.countP_append, hn', Nat.zero_add]
  cases h with
  | same hn hfull hrearms hroom =>
    rw [ha.full_eq, ha.ring_eq] at hroom
    exact .same (hcount.trans hn) (hfull.trans ha.full_eq) (hrearms.trans ha.rearms_eq) hroom
  | built hn hclear hfull hrearms =>
    exact .built (hcount.trans hn) (ha.full_eq.symm.trans hclear) hfull (hrearms.trans ha.rearms_eq)
  | relieved hbegins hreads hfull hroom hclear hrearms hwatched =>
    rw [ha.full_eq] at hfull
    rw [ha.ring_eq] at hroom
    rw [ha.rearms_eq] at hrearms
    refine .relieved hbegins ?_ hfull hroom hclear hrearms ?_
    · intro e he
      obtain he | he := List.mem_append.mp he
      · exact ha.reads e he
      · exact hreads e he
    · intro hup
      obtain ⟨i, hi⟩ := hwatched hup
      exact ⟨i, List.mem_append_right _ hi⟩

theorem before (h : Pressure s begins False c es c') (ha : Aloof c' es' c'')
    (hwatched : begins → c'.connection.stats.rearms ≠ c.connection.stats.rearms → up →
      ∃ i, Event.call (.reregister s socketToken i) (.ok ()) ∈ es') : Pressure s begins up c (es ++ es') c'' := by
  have hn' := Event.countP_isSaturation fun e he => Event.isSaturation_of_isReading (ha.reads e he)
  have hcount : (es ++ es').countP (·.isSaturation) = es.countP (·.isSaturation) := by
    rw [List.countP_append, hn', Nat.add_zero]
  cases h with
  | same hn hfull hrearms hroom =>
    exact .same (hcount.trans hn) (ha.full_eq.trans hfull) (ha.rearms_eq.trans hrearms) hroom
  | built hn hclear hfull hrearms =>
    exact .built (hcount.trans hn) hclear (ha.full_eq.trans hfull) (ha.rearms_eq.trans hrearms)
  | relieved hbegins hreads hfull hroom hclear hrearms =>
    refine .relieved hbegins ?_ hfull hroom (ha.full_eq.trans hclear) (ha.rearms_eq.trans hrearms) ?_
    · intro e he
      obtain he | he := List.mem_append.mp he
      · exact hreads e he
      · exact ha.reads e he
    · intro hup
      obtain ⟨i, hi⟩ := hwatched hbegins (by omega) hup
      exact ⟨i, List.mem_append_right _ hi⟩

end Pressure

theorem receive_pressure (hr : c.buffers.read.WellFormed) (hclear : c.connection.flow.readFull = false) {alive : Bool}
    (h : c.receive S s = .ok (alive, c')) : ∃ es, c.world.Does es c'.world ∧ Pressure s begins False c es c' ∧
      (c'.connection.flow.readFull = true → c'.buffers.read.free = 0) := by
  obtain ⟨t, ht, -, rfl⟩ := receive_ok h
  obtain ⟨es, hd, hstream⟩ := (Transfer.receive_calls ht).only
  obtain ⟨_, -, hring, -⟩ := Transfer.receive_stops ht
  obtain ⟨_, _, -, -, hholds⟩ := Transfer.receive_moves ht
  have hwf : t.ring.WellFormed := (hholds _ _ ⟨hr, rfl, rfl⟩).wellFormed
  have hn := Event.countP_isSaturation fun e he => Event.isSaturation_of_stream (hstream e he)
  refine ⟨_, hd.trans (World.record_does S _ rfl), ?_⟩
  cases hstop : t.stop with
  | ring =>
    constructor
    · apply Pressure.built
      · rw [List.countP_append, hn]
        rfl
      · exact hclear
      · rfl
      · rfl
    · exact fun _ => (Ring.writeSpanLength_eq_zero hwf).mp (hring hstop)
  | wouldBlock =>
    constructor
    · apply Pressure.same
      · rw [List.countP_append, hn]
        rfl
      · exact hclear.symm
      · rfl
      · simp [hclear]
    · exact nofun
  | lost =>
    constructor
    · apply Pressure.same
      · rw [List.countP_append, hn]
        rfl
      · rfl
      · rfl
      · simp [hclear]
    · simp [Flow.received, hclear]

theorem receiveIfRoom_pressure (hr : c.buffers.read.WellFormed) (hbegins : begins) {alive anew : Bool}
    (h : c.receiveIfRoom S s = .ok (alive, anew, c')) : ∃ es, c.world.Does es c'.world ∧ Pressure s begins False c es c' ∧
      (c'.connection.flow.readFull = true → c'.buffers.read.free = 0) ∧
      (c'.connection.stats.rearms ≠ c.connection.stats.rearms → anew = true) := by
  unfold receiveIfRoom at h
  split at h
  · rename_i hfree
    obtain ⟨-, -, rfl⟩ := by simpa using h
    exact ⟨[], .refl _, .same rfl rfl rfl fun _ _ => hfree, fun _ => hfree, fun hne => absurd rfl hne⟩
  · rename_i hfree
    split at h
    · rename_i hfull
      obtain ⟨-, rfl, rfl⟩ := by simpa using h
      exact ⟨[], .refl _, .relieved hbegins nofun hfull hfree rfl rfl nofun, nofun, fun _ => rfl⟩
    · rename_i hclear
      obtain ⟨⟨_, c₁⟩, hc, h⟩ := Fault.map_eq_ok.mp h
      obtain ⟨-, -, rfl⟩ := by simpa using h
      obtain ⟨es, hd, hp, hfull⟩ : ∃ es, c.world.Does es c₁.world ∧ Pressure s begins False c es c₁ ∧ _ :=
        receive_pressure hr (Bool.eq_false_iff.mpr hclear) hc
      refine ⟨es, hd, hp, hfull, fun hne => ?_⟩
      obtain ⟨t, -, -, rfl⟩ := receive_ok hc
      exact absurd rfl hne

/-- A part of a cycle that starts on a link does this, up to `c₁`, where the part is over or the link is lost. -/
structure Bears (S : System ω) (s : Socket) (peer : SocketAddress) (begins : Prop) (c : Cycle ω) (es : List Event)
    (c₁ c' : Cycle ω) : Prop where
  does : c.world.Does es c₁.world
  phase_eq : c₁.connection.phase = .connected s peer
  ends : c' = c₁ ∨ ∃ now, c' = c₁.lose S now s
  pressure : Pressure s begins (c'.connection.state = .connected) c es c₁
  full : c₁.connection.flow.readFull = true → c₁.buffers.read.free = 0

namespace Bears

theorem of_aloof (ha : Aloof c es c') (hphase : c.connection.phase = .connected s peer)
    (hfull : c.connection.flow.readFull = true → c.buffers.read.free = 0) : Bears S s peer begins c es c' c' := by
  refine ⟨ha.does, ha.phase_eq.trans hphase, .inl rfl, .of_aloof ha hfull, ?_⟩
  rw [ha.full_eq, ha.ring_eq]
  exact hfull

theorem after {c₁ : Cycle ω} (ha : Aloof c es c'') (h : Bears S s peer begins c'' es' c₁ c') :
    Bears S s peer begins c (es ++ es') c₁ c' :=
  ⟨ha.does.trans h.does, h.phase_eq, h.ends, h.pressure.after ha, h.full⟩

end Bears

theorem beforeWait_bears (hphase : c.connection.phase = .connected s peer) (hr : c.buffers.read.WellFormed)
    (hbegins : begins) (h : c.beforeWait S now = .ok c') : ∃ es c₁, Bears S s peer begins c es c₁ c' := by
  obtain ⟨alive, anew, c₁, hread, h⟩ := beforeWait_connected hphase h
  have hp₁ : c₁.connection.phase = .connected s peer := (receiveIfRoom_stays hread).phase_eq.trans hphase
  obtain ⟨es, hd, hpressure, hfull, hanew⟩ := receiveIfRoom_pressure hr hbegins hread
  obtain ⟨c₂, es', ha, hends⟩ : ∃ c₂ es', Aloof c₁ es' c₂ ∧
      (c' = c₂.lose S now s ∨ c' = c₂ ∧ (anew = true → ∃ i, Event.call (.reregister s socketToken i) (.ok ()) ∈ es')) := by
    obtain ⟨-, rfl⟩ | ⟨-, h⟩ := h
    · exact ⟨c₁, [], .refl c₁, .inl rfl⟩
    · exact sendAndWatch_aloof h
  refine ⟨es ++ es', c₂, hd.trans ha.does, ha.phase_eq.trans hp₁, ?_, ?_, ?_⟩
  · exact hends.symm.imp And.left fun hlost => ⟨now, hlost⟩
  · apply hpressure.before ha
    intro _ hne hup
    obtain rfl | ⟨-, hwatched⟩ := hends
    · exact absurd hup nofun
    · exact hwatched (hanew hne)
  · rw [ha.full_eq, ha.ring_eq]
    exact hfull

theorem onConnected_bears (hphase : c.connection.phase = .connected s peer) (hr : c.buffers.read.WellFormed)
    (hfull : c.connection.flow.readFull = true → c.buffers.read.free = 0) (hbegins : ¬begins) {e : Readiness}
    (h : c.onConnected S now e s = .ok c') : ∃ es c₁, Bears S s peer begins c es c₁ c' := by
  obtain ⟨alive, c₁, hread, h⟩ := onConnected_ok h
  have hp₁ : c₁.connection.phase = .connected s peer := (receiveReady_stays hread).phase_eq.trans hphase
  obtain ⟨es, hd, hpressure, hfull₁⟩ : ∃ es, c.world.Does es c₁.world ∧ Pressure s begins False c es c₁ ∧
      (c₁.connection.flow.readFull = true → c₁.buffers.read.free = 0) := by
    unfold receiveReady at hread
    split at hread
    · rename_i hroom
      obtain ⟨-, hfree⟩ : e.readable = true ∧ c.buffers.read.free ≠ 0 := by simpa using hroom
      exact receive_pressure hr (Bool.eq_false_iff.mpr fun hmark => hfree (hfull hmark)) hread
    · obtain ⟨-, rfl⟩ := by simpa using hread
      exact ⟨[], .refl _, .of_aloof (.refl _) hfull, hfull⟩
  obtain ⟨c₂, es', ha, hends⟩ : ∃ c₂ es', Aloof c₁ es' c₂ ∧ (c' = c₂.lose S now s ∨ c' = c₂) := by
    obtain ⟨-, rfl⟩ | ⟨-, h⟩ := h
    · exact ⟨c₁, [], .refl c₁, .inl rfl⟩
    · exact hangUpOrSend_aloof h
  refine ⟨es ++ es', c₂, hd.trans ha.does, ha.phase_eq.trans hp₁, ?_, ?_, ?_⟩
  · exact hends.symm.imp_right fun hlost => ⟨now, hlost⟩
  · exact hpressure.before ha fun hb => absurd hb hbegins
  · rw [ha.full_eq, ha.ring_eq]
    exact hfull₁

end Cycle

namespace Engine

open IrcLink.Cycle

variable {ω : Type} {S : System ω} {now : Nat} {c c' : Cycle ω} {s : Socket} {peer : SocketAddress} {p q made : Point ω}
  {first : Engine ω} {begins : Prop}

theorem onCompletion_aloof (S : System ω) (now : Nat) (hphase : c.connection.phase = .connected s peer) :
    ∃ es, Aloof c es (onCompletion S now c) := by
  obtain ⟨rs, world, stop, hd, -, heq⟩ := onCompletion_eq S now c
  rw [heq, onLookups_of_phase (c := { c with outcome := { c.outcome with stopRequested := stop } }) (by simp [hphase])]
  refine ⟨_, hd, ?_, rfl, rfl, rfl, rfl⟩
  simp [Event.isReading]

theorem dispatch_bears (hphase : c.connection.phase = .connected s peer) (hr : c.buffers.read.WellFormed)
    (hfull : c.connection.flow.readFull = true → c.buffers.read.free = 0) (hbegins : ¬begins) {e : Readiness}
    (h : dispatch S now c e = .ok c') : ∃ es c₁, Bears S s peer begins c es c₁ c' := by
  have hhandled : Aloof c [.handled e] { c with world := c.world.record S (.handled e) } :=
    ⟨World.record_does S _ rfl, by simp [Event.isReading], rfl, rfl, rfl, rfl⟩
  unfold dispatch at h
  split at h
  · rw [onEvent, hphase] at h
    obtain ⟨es, c₁, hb⟩ := onConnected_bears (c := { c with world := c.world.record S (.handled e) })
      hphase hr hfull hbegins h
    exact ⟨_, c₁, .after hhandled hb⟩
  · split at h
    · obtain rfl := Except.ok.inj h
      obtain ⟨es, ha⟩ := onCompletion_aloof (c := { c with world := c.world.record S (.handled e) }) S now hphase
      exact ⟨_, _, .of_aloof (hhandled.trans ha) hphase hfull⟩
    · obtain rfl := Except.ok.inj h
      exact ⟨_, _, .of_aloof hhandled hphase hfull⟩

def Point.Pressed (p : Point ω) : Prop :=
  p.time? ≠ none → p.cycle.connection.flow.readFull = true → p.cycle.buffers.read.free = 0

theorem wait_aloof {timeout : Option Nat} {waited : Call.Waited} {world : World ω}
    (h : c.world.wait S c.connection.settings.eventCapacity timeout = (waited, world)) (outcome : Outcome) :
    ∃ es, Aloof c es { c with world, outcome } :=
  Aloof.of_only (.of_does (World.wait_does S h) rfl) rfl rfl rfl rfl

theorem Step.bears (h : Step S p q) (hphase : p.cycle.connection.phase = .connected s peer)
    (hr : p.cycle.buffers.read.WellFormed) (hp : p.Pressed) :
    ∃ es c, Bears S s peer (p.time? = none) p.cycle es c q.cycle := by
  cases h with
  | begin timeout h => exact beforeWait_bears hphase hr rfl h
  | failed h =>
    obtain ⟨es, ha⟩ := wait_aloof h {}
    exact ⟨es, _, .of_aloof ha hphase (hp nofun)⟩
  | @interrupted _ _ c _ h =>
    obtain ⟨es, ha⟩ := wait_aloof h c.outcome
    exact ⟨es, _, .of_aloof ha hphase (hp nofun)⟩
  | @ready _ _ c _ _ h =>
    obtain ⟨es, ha⟩ := wait_aloof h c.outcome
    exact ⟨es, _, .of_aloof ha hphase (hp nofun)⟩
  | handle h => exact dispatch_bears hphase hr (hp nofun) nofun h
  | finish now c =>
    have hs : c.connection.state = .connected := Connection.state_eq_connected.mpr ⟨s, peer, hphase⟩
    have ha : Aloof c [] ⟨c.connection, c.buffers, c.world, {}⟩ := ⟨.refl _, nofun, rfl, rfl, rfl, rfl⟩
    rw [afterEvents_of_connected hs]
    exact ⟨[], _, .of_aloof ha hphase (hp nofun)⟩

theorem Step.made_afresh (h : Step S p q) (hu : p.cycle.connection.state ≠ .connected)
    (hs : q.cycle.connection.state = .connected) : q.cycle.connection.flow = {} := by
  cases h with
  | begin timeout h =>
    obtain rfl := beforeWait_unlinked hu h
    exact absurd hs hu
  | failed => exact absurd hs hu
  | interrupted => exact absurd hs hu
  | ready => exact absurd hs hu
  | handle h =>
    obtain hkept | ⟨-, s, peer, world, rfl⟩ := dispatch_cases hu h
    · exact absurd hs hkept.unlinked
    · rfl
  | finish now c => exact absurd hs (afterEvents_unlinked S now (World.startLookup S) hu).1.unlinked

theorem Visited.pressed (hf : ∀ b, (Point.idle first b).cycle.Tuned) (hp : Visited S first p) : p.Pressed := by
  induction hp with
  | start => exact fun hin => absurd rfl hin
  | use => exact fun hin => absurd rfl hin
  | @step p q hp h ih =>
    obtain ⟨-, hr⟩ := hp.tuned hf
    obtain ⟨ht, -⟩ := (hp.step h).tuned hf
    intro _ hmark
    by_cases hs : p.cycle.connection.state = .connected
    · obtain ⟨s, peer, hphase⟩ := Connection.state_eq_connected.mp hs
      obtain ⟨es, c, hb⟩ := h.bears hphase hr ih
      obtain hq | ⟨now, hq⟩ := hb.ends
      all_goals rw [hq] at hmark
      · rw [hq]
        exact hb.full hmark
      · exact absurd hmark nofun
    · have hflow : q.cycle.connection.flow = {} := by
        by_cases hs' : q.cycle.connection.state = .connected
        · exact h.made_afresh hs hs'
        · exact (ht.unlinked hs').1
      rw [hflow] at hmark
      exact absurd hmark nofun

inductive Lasts (S : System ω) (made : Point ω) : Point ω → Prop
  | made : Lasts S made made
  | step {p q : Point ω} (hp : Lasts S made p) (h : Step S p q) (hs : q.cycle.connection.state = .connected) :
      Lasts S made q
  | use {e : Engine ω} {b b' : Buffers} (hp : Lasts S made (.idle e b)) (hb : b'.read.WellFormed) :
      Lasts S made (.idle e b')

/-- All full rings since the connection was made were answered, but for one of which the mark is still there. -/
structure Balanced (made : Point ω) (c : Cycle ω) (all : List Event) : Prop where
  does : made.cycle.world.Does all c.world
  rearms_add_mark : c.connection.stats.rearms + c.connection.mark =
    made.cycle.connection.stats.rearms + all.countP (·.isSaturation)

theorem Balanced.bears {all es : List Event} (h : Balanced made p.cycle all) (hb : Bears S s peer begins p.cycle es c c') :
    Balanced made c (all ++ es) := by
  refine ⟨h.does.trans hb.does, ?_⟩
  rw [List.countP_append, hb.pressure.balance, h.rearms_add_mark]
  omega

theorem Lasts.balanced (hf : ∀ b, (Point.idle first b).cycle.Tuned) (hv : Visited S first made)
    (hs : made.cycle.connection.state = .connected) (hflow : made.cycle.connection.flow = {}) (hq : Lasts S made q) :
    Visited S first q ∧ q.cycle.connection.state = .connected ∧ ∃ all, Balanced made q.cycle all := by
  induction hq with
  | made => exact ⟨hv, hs, [], .refl _, by simp [Connection.mark, hflow]⟩
  | @step p q _ h hs' ih =>
    obtain ⟨hp, hs, all, hall⟩ := ih
    obtain ⟨s, peer, hphase⟩ := Connection.state_eq_connected.mp hs
    obtain ⟨es, c, hb⟩ := h.bears hphase (hp.tuned hf).2 (hp.pressed hf)
    have hc := hall.bears hb
    refine ⟨hp.step h, hs', all ++ es, ?_⟩
    obtain hq | ⟨now, hq⟩ := hb.ends
    · rwa [hq]
    · rw [hq] at hs'
      exact absurd hs' nofun
  | use _ hb ih =>
    obtain ⟨hp, hs, all, hall⟩ := ih
    exact ⟨hp.use hb, hs, all, hall.does, hall.rearms_add_mark⟩

theorem one_rearm_per_full_ring {settings : LinkSettings} {start : Nat} {w : World ω} {r : Point ω}
    (hfirst : create S settings start w = .ok first) (hp : Visited S first p) (hmade : Step S p made)
    (hu : p.cycle.connection.state ≠ .connected) (hs : made.cycle.connection.state = .connected)
    (hq : Lasts S made q) (h : Step S q r) :
    made.cycle.connection.flow.readFull = false ∧ ∃ s peer es c all, q.cycle.connection.phase = .connected s peer ∧
      Bears S s peer (q.time? = none) q.cycle es c r.cycle ∧ Balanced made c all := by
  have hf := create_tuned hfirst
  have hflow := hmade.made_afresh hu hs
  obtain ⟨hv, hs', all, hall⟩ := hq.balanced hf (hp.step hmade) hs hflow
  obtain ⟨s, peer, hphase⟩ := Connection.state_eq_connected.mp hs'
  obtain ⟨es, c, hb⟩ := h.bears hphase (hv.tuned hf).2 (hv.pressed hf)
  exact ⟨by rw [hflow], s, peer, es, c, _, hphase, hb, hall.bears hb⟩

def arrived : Readiness := { token := socketToken, readable := true }

def overflowing : Script where
  upcoming := [{ reads := [.data [1, 2, 3, 4, 5, 6]] }]
  turns := [{}, { lookup := some (some [testAddress 1]) }, { result := .events [ready, arrived] }]

theorem one_rearm_per_full_ring_of_six_bytes : ∃ first p made q r s peer es c all,
    create Script.system { host := "irc.example.net", port := 6667 } 0 { os := overflowing } = .ok first ∧
    Visited Script.system first p ∧ Step Script.system p made ∧ Lasts Script.system made q ∧ Step Script.system q r ∧
    p.cycle.connection.state = .connecting ∧ made.cycle.connection.state = .connected ∧
    q.cycle.connection.flow.readFull = true ∧ r.cycle.connection.state = .connected ∧
    r.cycle.connection.flow.readFull = false ∧ r.cycle.connection.stats.rearms = 1 ∧
    Bears Script.system s peer (q.time? = none) q.cycle es c r.cycle ∧ Balanced made c all := by
  have hS := Script.system_bounded
  obtain ⟨e, he⟩ : ∃ e, create Script.system { host := "irc.example.net", port := 6667 } 0 { os := overflowing } = .ok e :=
    ⟨_, rfl⟩
  obtain ⟨b, hb⟩ : ∃ b, Buffers.create 4 = .ok b := ⟨_, rfl⟩
  have heval : (do
      let (_, e, b) ← e.cycle Script.system b 0 none
      let (_, e, b) ← e.cycle Script.system b 0 none
      let c ← Cycle.beforeWait Script.system 0 ⟨e.connection, b, e.world, {}⟩
      let waited := c.world.wait Script.system c.connection.settings.eventCapacity (waitTimeout c.connection 0 none)
      let c := { c with world := waited.2 }
      let c₁ ← dispatch Script.system 0 c ready
      let c₂ ← dispatch Script.system 0 c₁ arrived
      let c₃ := c₂.afterEvents Script.system 0 (World.startLookup Script.system)
      let c₄ ← Cycle.beforeWait Script.system 0
        ⟨c₃.connection, { c₃.buffers with read := (c₃.buffers.read.get 2).2 }, c₃.world, {}⟩
      return (waited.1, [c.connection.state, c₁.connection.state, c₂.connection.state, c₃.connection.state,
        c₄.connection.state], [c₃.connection.flow.readFull, c₄.connection.flow.readFull], c₄.connection.stats.rearms)) =
          .ok (.events [ready, arrived], [.connecting, .connected, .connected, .connected, .connected], [true, false], 1) := by
    obtain rfl := Except.ok.inj he
    obtain rfl := Except.ok.inj hb
    decide +kernel
  obtain ⟨_, e₁, b₁, h₁⟩ := cycle_isOk hS e b 0 none
  obtain ⟨_, e₂, b₂, h₂⟩ := cycle_isOk hS e₁ b₁ 0 none
  obtain ⟨c, hc⟩ := Cycle.beforeWait_isOk hS 0 ⟨e₂.connection, b₂, e₂.world, {}⟩
  let waited := c.world.wait Script.system c.connection.settings.eventCapacity (waitTimeout c.connection 0 none)
  obtain ⟨c₁, hc₁⟩ := dispatch_isOk hS 0 { c with world := waited.2 } ready
  obtain ⟨c₂, hc₂⟩ := dispatch_isOk hS 0 c₁ arrived
  let c₃ := c₂.afterEvents Script.system 0 (World.startLookup Script.system)
  obtain ⟨c₄, hc₄⟩ := Cycle.beforeWait_isOk hS 0
    ⟨c₃.connection, { c₃.buffers with read := (c₃.buffers.read.get 2).2 }, c₃.world, {}⟩
  simp only [h₁, h₂, hc, hc₁, hc₂, hc₄, c₃, waited, bind, Except.bind, pure, Except.pure, Except.ok.injEq, Prod.mk.injEq,
    List.cons.injEq] at heval
  obtain ⟨hwaited, ⟨hs, hs₁, hs₂, hs₃, hs₄, -⟩, ⟨hmark, hclear, -⟩, hrearms⟩ := heval
  have hwait : waited = (.events [ready, arrived], waited.2) := Prod.ext hwaited rfl
  obtain ⟨_, hread⟩ := (counted_of_create he hb).read
  have hp : Visited Script.system e (.handling 0 { c with world := waited.2 } [ready, arrived]) :=
    ((((Visited.start hread.wellFormed).steps (cycle_steps h₁)).steps (cycle_steps h₂)).step (.begin none hc)).step
      (.ready hwait)
  have hmade : Step Script.system _ (.handling 0 c₁ [arrived]) := .handle hc₁
  have hlasts : Lasts Script.system (.handling 0 c₁ [arrived]) (.idle ⟨c₃.connection, c₃.world, {}⟩ c₃.buffers) :=
    (Lasts.made.step (.handle hc₂) hs₂).step (.finish 0 c₂) hs₃
  have hwf : c₃.buffers.read.WellFormed :=
    ((((hp.step hmade).step (.handle hc₂)).step (.finish 0 c₂)).tuned (create_tuned he)).2
  obtain ⟨-, hleft⟩ := (show c₃.buffers.read.Holds _ _ from ⟨hwf, rfl, rfl⟩).get 2
  let drained : Point Script := .idle ⟨c₃.connection, c₃.world, {}⟩ { c₃.buffers with read := (c₃.buffers.read.get 2).2 }
  have hdrained : Lasts Script.system _ drained := hlasts.use hleft.wellFormed
  have hnext : Step Script.system drained (.waiting 0 none c₄) := .begin none hc₄
  have hu : c.connection.state ≠ .connected := by rw [hs]; nofun
  obtain ⟨-, s, peer, es, c', all, -, hbears, hall⟩ := one_rearm_per_full_ring he hp hmade hu hs₁ hdrained hnext
  exact ⟨e, _, _, _, _, s, peer, es, c', all, he, hp, hmade, hdrained, hnext, hs, hs₁, hmark, hs₄, hclear, hrearms, hbears,
    hall⟩

end Engine

end IrcLink
