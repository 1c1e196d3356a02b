import IrcLink.Proofs.Engine.Steps
import IrcLink.Proofs.Engine.Transfer
import IrcLink.Proofs.Ring.Alike

/-!
No step of a cycle loses, adds or reorders a byte. What a stream gave is at the end of the read queue, what it took was
at the front of the write queue, and nothing else changes either of them: not a failure, and not the loss of the
connection.
-/

namespace IrcLink

namespace Cycle

variable {ω : Type} {S : System ω} {now : Nat}

/-- From the one state to the other bytes move only between the queues and the given streams, each byte is counted, and
none is lost. -/
structure Moves (on : Socket → Prop) (c c' : Cycle ω) (es : List Event) : Prop where
  does : c.world.Does es c'.world
  stream : ∀ e ∈ es, ∀ s, e.stream? = some s → on s
  read : ∀ C q, c.buffers.read.Holds C q → c'.buffers.read.Holds C (q ++ es.flatMap Event.received)
  write : ∀ C q, c.buffers.write.Holds C q → ∃ q', q = es.flatMap Event.sent ++ q' ∧ c'.buffers.write.Holds C q'
  bytesRead : c'.connection.stats.bytesRead = c.connection.stats.bytesRead + (es.flatMap Event.received).length
  bytesWritten : c'.connection.stats.bytesWritten = c.connection.stats.bytesWritten + (es.flatMap Event.sent).length

def Carries (on : Socket → Prop) (c c' : Cycle ω) : Prop := ∃ es, Moves on c c' es

namespace Carries

variable {on : Socket → Prop} {c c' c'' : Cycle ω}

theorem trans (h : Carries on c c') (h' : Carries on c' c'') : Carries on c c'' := by
  obtain ⟨es, hd, hs, hr, hw, hbr, hbw⟩ := h
  obtain ⟨es', hd', hs', hr', hw', hbr', hbw'⟩ := h'
  refine ⟨es ++ es', hd.trans hd', ?_, ?_, ?_, ?_, ?_⟩
  · intro e he s hes
    obtain he | he := List.mem_append.mp he
    · exact hs e he s hes
    · exact hs' e he s hes
  · intro C q hq
    rw [List.flatMap_append, ← List.append_assoc]
    exact hr' C _ (hr C q hq)
  · intro C q hq
    obtain ⟨q', rfl, hq'⟩ := hw C q hq
    obtain ⟨q'', rfl, hq''⟩ := hw' C q' hq'
    exact ⟨q'', by rw [List.flatMap_append, List.append_assoc], hq''⟩
  · rw [hbr', hbr, List.flatMap_append, List.length_append, Nat.add_assoc]
  · rw [hbw', hbw, List.flatMap_append, List.length_append, Nat.add_assoc]

theorem of_quiet (hq : c.world.Quiet c'.world) (hb : c'.buffers = c.buffers)
    (hr : c'.connection.stats.bytesRead = c.connection.stats.bytesRead)
    (hw : c'.connection.stats.bytesWritten = c.connection.stats.bytesWritten) : Carries on c c' := by
  obtain ⟨es, hd, hes⟩ := hq
  have hsent : es.flatMap Event.sent = [] := List.flatMap_eq_nil_iff.mpr fun e he => Event.sent_of_stream (hes e he)
  have hreceived : es.flatMap Event.received = [] :=
    List.flatMap_eq_nil_iff.mpr fun e he => Event.received_of_stream (hes e he)
  refine ⟨es, hd, ?_, ?_, ?_, ?_, ?_⟩
  · intro e he s hs
    rw [hes e he] at hs
    simp at hs
  · intro C q h
    rw [hb, hreceived, List.append_nil]
    exact h
  · intro C q h
    exact ⟨q, by rw [hsent, List.nil_append], hb ▸ h⟩
  · rw [hr, hreceived, List.length_nil, Nat.add_zero]
  · rw [hw, hsent, List.length_nil, Nat.add_zero]

theorem refl (c : Cycle ω) : Carries on c c := of_quiet (.refl _) rfl rfl rfl

theorem goes (h : Carries on c c') : c.world.Goes c'.world := by
  obtain ⟨es, m⟩ := h
  exact ⟨es, m.does⟩

theorem hold {C : Nat} (h : Carries on c c') (hb : c.buffers.Hold C) : c'.buffers.Hold C := by
  obtain ⟨⟨_, hr⟩, _, hw⟩ := hb
  obtain ⟨es, m⟩ := h
  obtain ⟨_, -, hw⟩ := m.write C _ hw
  exact ⟨⟨_, m.read C _ hr⟩, _, hw⟩

theorem withOutcome (h : Carries on c c') (outcome : Outcome) : Carries on c { c' with outcome } := by
  obtain ⟨es, hd, hs, hr, hw, hbr, hbw⟩ := h
  exact ⟨es, hd, hs, hr, hw, hbr, hbw⟩

end Carries

variable {on : Socket → Prop} {c c' : Cycle ω} {s : Socket}

theorem receive_carries (hs : on s) {alive : Bool} (h : c.receive S s = .ok (alive, c')) : Carries on c c' := by
  simp only [receive] at h
  cases ht : Transfer.receive S s c.buffers.read c.world with
  | error f => simp [ht, bind, Except.bind] at h
  | ok t =>
    obtain ⟨es, hd, hes, hm, hq⟩ := Transfer.receive_moves ht
    have hsent : es.flatMap Event.sent = [] := List.flatMap_eq_nil_iff.mpr fun e he => (hes e he).2
    have hrec : t.world.Does [.receiveEnded t.stop] (t.world.record S (.receiveEnded t.stop)) :=
      World.record_does S _ rfl
    obtain ⟨-, rfl⟩ := by simpa [ht, bind, Except.bind, pure, Except.pure] using h
    refine ⟨es ++ [.receiveEnded t.stop], hd.trans hrec, ?_, ?_, ?_, ?_, ?_⟩
    · intro e he s' hs'
      obtain he | he := List.mem_append.mp he
      · rw [(hes e he).1] at hs'
        obtain rfl := Option.some.inj hs'
        exact hs
      · obtain rfl := List.mem_singleton.mp he
        simp [Event.stream?] at hs'
    · intro C q hC
      simpa [Event.received, setFlow, countStats] using hq C q hC
    · intro C q hC
      exact ⟨q, by simp [hsent, Event.sent], hC⟩
    · simp [Event.received, countStats, setFlow, hm]
    · simp [Event.sent, countStats, setFlow, hsent]

theorem transmit_carries (hs : on s) {alive : Bool} (h : c.transmit S s = .ok (alive, c')) : Carries on c c' := by
  simp only [transmit] at h
  cases ht : Transfer.transmit S s c.buffers.write c.world with
  | error f => simp [ht, bind, Except.bind] at h
  | ok t =>
    obtain ⟨es, hd, hes, hm, hq⟩ := Transfer.transmit_moves ht
    have hreceived : es.flatMap Event.received = [] := List.flatMap_eq_nil_iff.mpr fun e he => (hes e he).2
    obtain ⟨-, rfl⟩ := by simpa [ht, bind, Except.bind, pure, Except.pure] using h
    refine ⟨es, hd, ?_, ?_, hq, ?_, ?_⟩
    · intro e he s' hs'
      rw [(hes e he).1] at hs'
      obtain rfl := Option.some.inj hs'
      exact hs
    · intro C q hC
      simpa [hreceived, setFlow, countStats] using hC
    · simp [countStats, setFlow, hreceived]
    · simp [countStats, setFlow, hm]

theorem lose_carries (now : Nat) (c : Cycle ω) (s : Socket) : Carries on c (c.lose S now s) :=
  .of_quiet ((World.abandon_hush (S := S) c.world s).quiet) rfl rfl rfl

theorem receiveIfRoom_carries (hs : on s) {alive anew : Bool} (h : c.receiveIfRoom S s = .ok (alive, anew, c')) :
    Carries on c c' := by
  simp only [receiveIfRoom] at h
  split at h
  · obtain ⟨-, -, rfl⟩ := by simpa using h
    exact .refl c
  · split at h
    · obtain ⟨-, -, rfl⟩ := by simpa using h
      exact .of_quiet (.refl _) rfl rfl rfl
    · cases hr : c.receive S s with
      | error f => simp [hr, Except.map] at h
      | ok p =>
        obtain ⟨-, -, rfl⟩ := by simpa [hr, Except.map] using h
        exact receive_carries hs hr

theorem transmitIfQueued_carries (hs : on s) {alive : Bool} (h : c.transmitIfQueued S s = .ok (alive, c')) :
    Carries on c c' := by
  simp only [transmitIfQueued] at h
  split at h
  · obtain ⟨-, rfl⟩ := by simpa using h
    exact .of_quiet (.refl _) rfl rfl rfl
  · split at h
    · obtain ⟨-, rfl⟩ := by simpa using h
      exact .refl c
    · exact transmit_carries hs h

theorem watch_carries (c : Cycle ω) (s : Socket) (anew : Bool) : Carries on c (c.watch S s anew).2 := by
  simp only [watch]
  split
  · have hq : c.world.Quiet _ := World.call_quiet S c.world
      (c := .reregister s socketToken (if c.connection.flow.writeFull then .readWrite else .read)) nofun fun _ => rfl
    split
    all_goals
      rename_i hc
      rw [hc] at hq
      exact .of_quiet hq rfl rfl rfl
  · exact .refl c

def onLink (c : Cycle ω) (s : Socket) : Prop := ∃ peer, c.connection.phase = .connected s peer

theorem sendAndWatch_carries (hs : on s) {anew : Bool} (h : c.sendAndWatch S now s anew = .ok c') :
    Carries on c c' := by
  obtain ⟨alive, c₁, ht, h⟩ := sendAndWatch_ok h
  have h₁ := transmitIfQueued_carries hs ht
  obtain ⟨-, rfl⟩ | ⟨-, rfl⟩ := h
  · exact h₁.trans (lose_carries now c₁ s)
  have h₂ := h₁.trans (watch_carries (S := S) c₁ s anew)
  split
  · exact h₂
  · exact h₂.trans (lose_carries now _ s)

theorem beforeWait_carries (h : c.beforeWait S now = .ok c') : Carries c.onLink c c' := by
  by_cases hs : c.connection.state = .connected
  · obtain ⟨s, peer, hphase⟩ := Connection.state_eq_connected.mp hs
    have hl : c.onLink s := ⟨peer, hphase⟩
    obtain ⟨alive, anew, c₁, hr, h⟩ := beforeWait_connected hphase h
    have h₁ := receiveIfRoom_carries hl hr
    obtain ⟨-, rfl⟩ | ⟨-, h⟩ := h
    · exact h₁.trans (lose_carries now c₁ s)
    · exact h₁.trans (sendAndWatch_carries hl h)
  · obtain rfl := beforeWait_unlinked hs h
    exact .refl _

theorem receiveReady_carries (hs : on s) {e : Readiness} {alive : Bool} (h : c.receiveReady S e s = .ok (alive, c')) :
    Carries on c c' := by
  simp only [receiveReady] at h
  split at h
  · exact receive_carries hs h
  · obtain ⟨-, rfl⟩ := by simpa using h
    exact .refl c

theorem transmitReady_carries (hs : on s) {alive : Bool} (h : c.transmitReady S s = .ok (alive, c')) :
    Carries on c c' := by
  have hf : Carries on c (c.setFlow { c.connection.flow with writeFull := false }) := .of_quiet (.refl _) rfl rfl rfl
  simp only [transmitReady] at h
  split at h
  · obtain ⟨-, rfl⟩ := by simpa using h
    exact hf
  · exact hf.trans (transmit_carries hs h)

theorem hangUpOrSend_carries (hs : on s) {e : Readiness} (h : c.hangUpOrSend S now e s = .ok c') : Carries on c c' := by
  obtain ⟨-, rfl⟩ | ⟨-, -, rfl⟩ | ⟨-, -, alive, c₁, ht, rfl⟩ := hangUpOrSend_ok h
  · have hq := World.call_quiet S c.world (c := .takeError s) nofun fun _ => rfl
    have h₁ : Carries on c { c with world := (c.world.call S (.takeError s)).2 } := .of_quiet hq rfl rfl rfl
    exact h₁.trans (lose_carries now _ s)
  · exact .refl _
  · have h₁ := transmitReady_carries hs ht
    split
    · exact h₁
    · exact h₁.trans (lose_carries now c₁ s)

theorem onConnected_carries (hs : on s) {e : Readiness} (h : c.onConnected S now e s = .ok c') : Carries on c c' := by
  obtain ⟨alive, c₁, hr, h⟩ := onConnected_ok h
  have h₁ := receiveReady_carries hs hr
  obtain ⟨-, rfl⟩ | ⟨-, h⟩ := h
  · exact h₁.trans (lose_carries now c₁ s)
  · exact h₁.trans (hangUpOrSend_carries hs h)

theorem dialFirst_carries (c : Cycle ω) (addresses : List SocketAddress) :
    Carries on c (c.dialFirst S now addresses) := by
  induction addresses generalizing c with
  | nil => exact .of_quiet (.refl _) rfl rfl rfl
  | cons a rest ih =>
    have hq := (World.dialWatched_hush (S := S) c.world c.connection.settings.noDelay a).quiet
    simp only [dialFirst]
    split
    all_goals
      rename_i hd
      change c.world.dialWatched S c.connection.settings.noDelay a = _ at hd
      rw [hd] at hq
    · exact .of_quiet hq rfl rfl rfl
    · rename_i world
      have hc : Carries on c { c.countStats fun t => { t with dials := t.dials + 1 } with world } :=
        .of_quiet hq rfl rfl rfl
      exact hc.trans (ih _)

theorem nextAddress_carries (c : Cycle ω) : Carries on c (c.nextAddress S now) := by
  unfold nextAddress
  split
  · exact dialFirst_carries c _
  · rename_i s _ _ _ _
    have ha : Carries on c { c with world := c.world.abandon S s } :=
      .of_quiet ((World.abandon_hush (S := S) c.world s).quiet) rfl rfl rfl
    exact ha.trans (dialFirst_carries _ _)
  · exact .refl c

theorem hasConnected_quiet (w : World ω) (s : Socket) : w.Quiet (hasConnected S w s).2 := by
  have he := World.call_quiet S w (c := .takeError s) nofun fun _ => rfl
  unfold hasConnected
  split
  all_goals
    rename_i hc
    rw [hc] at he
  · exact he
  · exact he
  · have hp := he.trans (World.call_quiet S _ (c := .peerAddress s) nofun fun _ => rfl)
    split
    all_goals
      rename_i hk
      rw [hk] at hp
      exact hp

theorem onConnecting_carries (c : Cycle ω) (e : Readiness) (s : Socket) (a : SocketAddress) :
    Carries on c (c.onConnecting S now e s a) := by
  unfold onConnecting
  split
  · have hq := World.call_quiet S c.world (c := .takeError s) nofun fun _ => rfl
    have hc : Carries on c { c with world := (c.world.call S (.takeError s)).2 } := .of_quiet hq rfl rfl rfl
    exact hc.trans (nextAddress_carries _)
  · split
    · have hh := hasConnected_quiet (S := S) c.world s
      split
      all_goals
        rename_i world hc
        rw [hc] at hh
        have hc : Carries on c { c with world } := .of_quiet hh rfl rfl rfl
      · exact hc
      · exact hc.trans (nextAddress_carries _)
      · have hr := hh.trans (World.call_quiet S world (c := .reregister s socketToken .read) nofun fun _ => rfl)
        split
        all_goals
          rename_i hw
          rw [hw] at hr
        · exact .of_quiet hr rfl rfl rfl
        · rename_i world
          have hc : Carries on c { c with world } := .of_quiet hr rfl rfl rfl
          exact hc.trans (nextAddress_carries _)
    · exact .refl c

theorem onEvent_carries {e : Readiness} (h : c.onEvent S now e = .ok c') : Carries c.onLink c c' := by
  unfold onEvent at h
  split at h
  · obtain rfl := Except.ok.inj h
    exact onConnecting_carries c e _ _
  · rename_i s peer hphase
    have hs : c.onLink s := ⟨peer, hphase⟩
    exact onConnected_carries hs h
  · obtain rfl := Except.ok.inj h
    exact .refl c

theorem onLookup_carries (c : Cycle ω) (r : Resolution) : Carries on c (c.onLookup now r) := by
  have hw := c.onLookup_world now r
  refine .of_quiet ?_ ?_ ?_ ?_
  · rw [hw]; exact .refl _
  all_goals unfold onLookup; split <;> rfl

theorem afterEvents_carries (c : Cycle ω) : Carries on c (c.afterEvents S now (World.startLookup S)) := by
  unfold afterEvents
  split
  · split
    · have hq := (World.startLookup_hush (S := S) c.world ⟨c.connection.settings.host, c.connection.settings.port⟩).quiet
      dsimp only
      split
      all_goals
        rename_i hl
        rw [hl] at hq
        exact .of_quiet (hq.trans (World.record_hush _ rfl rfl).quiet) rfl rfl rfl
    · exact .refl c
  · exact nextAddress_carries c
  · split
    · exact nextAddress_carries c
    · exact .refl c
  · exact .refl c

end Cycle

namespace Engine

open IrcLink.Cycle

variable {ω : Type} {S : System ω} {now : Nat} {on : Socket → Prop} {c c' : Cycle ω}

theorem collectAll_carries (c : Cycle ω) : Carries on c (collectAll S now c) := by
  induction c using collectAll.induct S now with
  | case1 c world hc =>
    have hq := (World.collect_hush (S := S) c.world).quiet
    rw [hc] at hq
    rw [collectAll, hc]
    exact .of_quiet hq rfl rfl rfl
  | case2 c r world hc ih =>
    have hq := (World.collect_hush (S := S) c.world).quiet
    rw [hc] at hq
    rw [collectAll, hc]
    have hw : Carries on c { c with world } := .of_quiet hq rfl rfl rfl
    exact (hw.trans (onLookup_carries _ r)).trans ih

theorem onCompletion_carries (c : Cycle ω) : Carries on c (onCompletion S now c) := by
  have hq := World.takeStop_quiet S c.world
  have hc : Carries on c { c with world := (c.world.takeStop S).2 } := .of_quiet hq rfl rfl rfl
  exact (hc.withOutcome { c.outcome with
    stopRequested := c.outcome.stopRequested || (c.world.takeStop S).1 }).trans (collectAll_carries _)

theorem dispatch_carries {e : Readiness} (h : dispatch S now c e = .ok c') : Carries c.onLink c c' := by
  have hr : Carries c.onLink c { c with world := c.world.record S (.handled e) } :=
    .of_quiet (World.record_hush _ rfl rfl).quiet rfl rfl rfl
  unfold dispatch at h
  split at h
  · exact hr.trans (onEvent_carries h)
  · split at h
    · obtain rfl := Except.ok.inj h
      exact hr.trans (onCompletion_carries _)
    · obtain rfl := Except.ok.inj h
      exact hr

end Engine

end IrcLink
