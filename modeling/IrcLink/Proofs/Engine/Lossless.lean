import IrcLink.Proofs.Engine.Run
import IrcLink.Proofs.Ring.Queue
import IrcLink.Script
import Mathlib.Data.List.Basic

/-!
The engine is a pipe in both directions. While a connection lives and when it is lost, the bytes that its socket took
and those that are still queued are the bytes that were queued when it was made and those the caller put since; the
same holds of the bytes that it gave. What was moved over all connections is counted.
-/

namespace IrcLink

theorem Script.system_bounded : Script.system.Bounded := by
  constructor
  · intro s room p data h
    change (readNext room _).1 = _ at h
    unfold readNext at h
    split at h
    · simp at h
    · obtain rfl := Call.Received.bytes.inj h
      exact List.length_take_le _ _
    · obtain rfl := Call.Received.bytes.inj h
      exact Nat.zero_le _
    · exact absurd h (failedRead_ne_bytes _ _)
  · intro s data p n h
    change (writeNext data.length _).1 = _ at h
    unfold writeNext at h
    split at h
    · obtain rfl := Call.Sent.accepted.inj h
      exact Nat.le_refl _
    · obtain rfl := Call.Sent.accepted.inj h
      exact Nat.min_le_right _ _
    · exact absurd h (failedWrite_ne_accepted _ _)

namespace Engine

open IrcLink.Cycle

variable {ω : Type} {S : System ω}

/-- The run of one connection: what the caller put and took since it was made, and where the engine stands. It ends
where the connection is lost. -/
inductive Lives (S : System ω) (s : Socket) (start : Point ω) : Bytes → Bytes → Point ω → Prop
  | made (h : start.cycle.onLink s) : Lives S s start [] [] start
  | step {given taken : Bytes} {p q : Point ω} (hl : Lives S s start given taken p) (hs : p.cycle.onLink s)
      (h : Step S p q) : Lives S s start given taken q
  | put {given taken : Bytes} {e : Engine ω} {b : Buffers} (hl : Lives S s start given taken (.idle e b))
      (hs : (Point.idle e b).cycle.onLink s) (data : Bytes) :
      Lives S s start (given ++ data.take (b.write.put data).2) taken (.idle e { b with write := (b.write.put data).1 })
  | get {given taken : Bytes} {e : Engine ω} {b : Buffers} (hl : Lives S s start given taken (.idle e b))
      (hs : (Point.idle e b).cycle.onLink s) (n : Nat) :
      Lives S s start given (taken ++ (b.read.get n).1) (.idle e { b with read := (b.read.get n).2 })

theorem onLink_unique {c : Cycle ω} {s s' : Socket} (h : c.onLink s) (h' : c.onLink s') : s' = s := by
  obtain ⟨peer, hp⟩ := h
  obtain ⟨peer', hp'⟩ := h'
  rw [hp] at hp'
  exact (Phase.connected.inj hp').1.symm

theorem take_put {ring : Ring} {C : Nat} {q : Bytes} (h : ring.Holds C q) (data : Bytes) :
    (ring.put data).1.Holds C (q ++ data.take (ring.put data).2) := by
  obtain ⟨hn, hp⟩ := h.put data
  have ht : data.take (min data.length (C - q.length)) = data.take (C - q.length) := by
    rw [← List.take_take, List.take_of_length_le (by rw [List.length_take]; omega)]
  rw [hn, ht]
  exact hp

/-- Since the start, every byte was counted, and the rings are in order. -/
structure Counted (start : Engine ω) (capacity : Nat) (p : Point ω) (es : List Event) : Prop where
  does : start.world.Does es p.cycle.world
  bytesRead : p.cycle.connection.stats.bytesRead = (es.flatMap Event.received).length
  bytesWritten : p.cycle.connection.stats.bytesWritten = (es.flatMap Event.sent).length
  read : ∃ q, p.cycle.buffers.read.Holds capacity q
  write : ∃ q, p.cycle.buffers.write.Holds capacity q

theorem Reached.counted {e : Engine ω} {b : Buffers} {C : Nat} (hc : Counted e C (.idle e b) []) {p : Point ω}
    (hp : Reached S (.idle e b) p) : ∃ es, Counted e C p es := by
  induction hp with
  | start => exact ⟨[], hc⟩
  | step _ h ih =>
    obtain ⟨es, hd, hr, hw, ⟨_, hread⟩, ⟨_, hwrite⟩⟩ := ih
    obtain ⟨es', m⟩ := h.carries
    obtain ⟨_, -, hwrite'⟩ := m.write C _ hwrite
    refine ⟨es ++ es', hd.trans m.does, ?_, ?_, ⟨_, m.read C _ hread⟩, ⟨_, hwrite'⟩⟩
    · rw [m.bytesRead, hr, List.flatMap_append, List.length_append]
    · rw [m.bytesWritten, hw, List.flatMap_append, List.length_append]
  | put _ data ih =>
    obtain ⟨es, hd, hr, hw, hread, ⟨_, hwrite⟩⟩ := ih
    exact ⟨es, hd, hr, hw, hread, ⟨_, take_put hwrite data⟩⟩
  | get _ n ih =>
    obtain ⟨es, hd, hr, hw, ⟨_, hread⟩, hwrite⟩ := ih
    exact ⟨es, hd, hr, hw, ⟨_, (hread.get n).2⟩, hwrite⟩
  | clear _ ih =>
    obtain ⟨es, hd, hr, hw, ⟨_, hread⟩, ⟨_, hwrite⟩⟩ := ih
    exact ⟨es, hd, hr, hw, ⟨_, hread.clear⟩, ⟨_, hwrite.clear⟩⟩

theorem create_connection {settings : LinkSettings} {now : Nat} {w : World ω} {e : Engine ω}
    (h : create S settings now w = .ok e) : e.connection = .create settings now := by
  unfold create at h
  split at h
  · simp at h
  · split at h
    · simp at h
    · obtain rfl := Except.ok.inj h
      rfl

theorem counted_of_create {settings : LinkSettings} {now capacity : Nat} {w : World ω} {e : Engine ω} {b : Buffers}
    (he : create S settings now w = .ok e) (hb : Buffers.create capacity = .ok b) :
    Counted e capacity (.idle e b) [] := by
  obtain ⟨ring, hring, h⟩ := Fault.bind_eq_ok.mp hb
  obtain rfl := Except.ok.inj h
  have hholds := Ring.create_holds hring
  have hc := create_connection he
  exact ⟨.refl _, by simp [Point.cycle, hc, Connection.create], by simp [Point.cycle, hc, Connection.create],
    ⟨[], hholds⟩, ⟨[], hholds⟩⟩

structure Conserved (s : Socket) (capacity : Nat) (start p : Point ω) (given taken : Bytes) (es : List Event) : Prop where
  does : start.cycle.world.Does es p.cycle.world
  stream : ∀ e ∈ es, ∀ s', e.stream? = some s' → s' = s
  read : ∀ q, start.cycle.buffers.read.Holds capacity q →
    ∃ q', p.cycle.buffers.read.Holds capacity q' ∧ q ++ es.flatMap Event.received = taken ++ q'
  write : ∀ q, start.cycle.buffers.write.Holds capacity q →
    ∃ q', p.cycle.buffers.write.Holds capacity q' ∧ es.flatMap Event.sent ++ q' = q ++ given

theorem Conserved.step {s : Socket} {C : Nat} {start p q : Point ω} {given taken : Bytes} {es : List Event}
    (hc : Conserved s C start p given taken es) (hs : p.cycle.onLink s) (h : Step S p q) :
    ∃ es', Conserved s C start q given taken es' := by
  obtain ⟨es', m⟩ := h.carries
  refine ⟨es ++ es', hc.does.trans m.does, ?_, ?_, ?_⟩
  · intro e he s' hs'
    obtain he | he := List.mem_append.mp he
    · exact hc.stream e he s' hs'
    · exact onLink_unique hs (m.stream e he s' hs')
  · intro r hr
    obtain ⟨r', hr', heq⟩ := hc.read r hr
    refine ⟨_, m.read C _ hr', ?_⟩
    rw [List.flatMap_append, ← List.append_assoc, heq, List.append_assoc]
  · intro w hw
    obtain ⟨w', hw', heq⟩ := hc.write w hw
    obtain ⟨w'', rfl, hw''⟩ := m.write C _ hw'
    exact ⟨w'', hw'', by rw [List.flatMap_append, List.append_assoc, heq]⟩

theorem Lives.conserved {s : Socket} {start p : Point ω} {given taken : Bytes} (C : Nat)
    (hl : Lives S s start given taken p) : ∃ es, Conserved s C start p given taken es := by
  induction hl with
  | made h => exact ⟨[], .refl _, nofun, fun q hq => ⟨q, hq, by simp⟩, fun q hq => ⟨q, hq, by simp⟩⟩
  | step _ hs h ih =>
    obtain ⟨es, hc⟩ := ih
    exact hc.step hs h
  | @put given taken e b _ _ data ih =>
    obtain ⟨es, hc⟩ := ih
    refine ⟨es, hc.does, hc.stream, hc.read, ?_⟩
    intro w hw
    obtain ⟨w', hw', heq⟩ := hc.write w hw
    have hput : (b.write.put data).1.Holds C _ := take_put hw' data
    refine ⟨_, hput, ?_⟩
    rw [← List.append_assoc, heq, List.append_assoc]
    rfl
  | @get given taken e b _ _ n ih =>
    obtain ⟨es, hc⟩ := ih
    refine ⟨es, hc.does, hc.stream, ?_, hc.write⟩
    intro r hr
    obtain ⟨r', hr', heq⟩ := hc.read r hr
    have hr' : b.read.Holds C r' := hr'
    obtain ⟨hb, hg⟩ := hr'.get n
    exact ⟨_, hg, by rw [heq, hb, List.append_assoc, List.take_append_drop]⟩

theorem run_is_lossless (hS : S.Bounded) {settings : LinkSettings} {now capacity : Nat} {w : World ω} {e : Engine ω}
    {b : Buffers} (he : create S settings now w = .ok e) (hb : Buffers.create capacity = .ok b) {p : Point ω}
    (hp : Reached S (.idle e b) p) :
    -- every cycle returns, with or without an error of the wait
    (∀ e' b' now timeout, p = .idle e' b' → ∃ r e'' b'', e'.cycle S b' now timeout = .ok (r, e'', b'') ∧
      Relation.ReflTransGen (Step S) p (.idle e'' b'')) ∧
    -- all that was moved since the start is counted
    (∃ seg, p.cycle.world.journal = e.world.journal ++ seg ∧
      p.cycle.connection.stats.bytesRead = seg.received.length ∧
      p.cycle.connection.stats.bytesWritten = seg.sent.length) ∧
    -- nothing but what a step moved changes a queue, whatever else happened in it
    (∀ q, Step S p q → ∃ seg, q.cycle.world.journal = p.cycle.world.journal ++ seg ∧
      seg.sent ++ q.cycle.buffers.write.toList = p.cycle.buffers.write.toList ∧
      p.cycle.buffers.read.toList ++ seg.received = q.cycle.buffers.read.toList) ∧
    -- a read or a write that fails leaves its queue as it was, and the loss that follows leaves both
    (∀ s ring w stop w', Transfer.receivePass S s ring w = .ok (.stopped stop w') →
      Transfer.receive S s ring w = .ok ⟨stop, 0, ring, w'⟩) ∧
    (∀ s ring w stop w', Transfer.transmitPass S s ring w = .ok (.stopped stop w') →
      Transfer.transmit S s ring w = .ok ⟨stop, 0, ring, w'⟩) ∧
    (∀ now c s, (lose S now c s).buffers = c.buffers) ∧
    -- no byte of a connection is lost while it lives and when it is lost
    ∀ s given taken q, Lives S s p given taken q → ∃ seg, q.cycle.world.journal = p.cycle.world.journal ++ seg ∧
      seg.sentOn s ++ q.cycle.buffers.write.toList = p.cycle.buffers.write.toList ++ given ∧
      p.cycle.buffers.read.toList ++ seg.receivedOn s = taken ++ q.cycle.buffers.read.toList := by
  obtain ⟨es, hd, hr, hw, ⟨_, hread⟩, ⟨_, hwrite⟩⟩ := hp.counted (counted_of_create he hb)
  refine ⟨?_, ?_, ?_, fun _ _ _ _ _ => Transfer.receive_of_stopped, fun _ _ _ _ _ => Transfer.transmit_of_stopped,
    fun _ _ _ => rfl, ?_⟩
  · rintro e' b' now timeout rfl
    obtain ⟨r, e'', b'', hc⟩ := cycle_isOk hS e' b' now timeout
    exact ⟨r, e'', b'', hc, cycle_steps hc⟩
  · obtain ⟨seg, hj, rfl⟩ := hd
    rw [Journal.received_own] at hr
    rw [Journal.sent_own] at hw
    exact ⟨seg, hj, hr, hw⟩
  · intro q h
    obtain ⟨es', ⟨seg, hj, rfl⟩, -, mr, mw, -, -⟩ := h.carries
    obtain ⟨q', hq', hwrite'⟩ := mw _ _ hwrite
    have hread' := mr _ _ hread
    rw [Journal.received_own] at hread'
    rw [Journal.sent_own] at hq'
    refine ⟨seg, hj, ?_, ?_⟩
    · rw [hwrite'.toList_eq, hwrite.toList_eq, hq']
    · rw [hread'.toList_eq, hread.toList_eq]
  · intro s given taken q hl
    obtain ⟨es', ⟨seg, hj, rfl⟩, hs, cr, cw⟩ := hl.conserved capacity
    obtain ⟨r', hr', hreq⟩ := cr _ hread
    obtain ⟨w', hw', hweq⟩ := cw _ hwrite
    refine ⟨seg, hj, ?_, ?_⟩
    · rw [hw'.toList_eq, hwrite.toList_eq, ← hweq, ← Journal.sentOn_own]
      rw [List.flatMap_congr fun e he => Event.sentOn_of_only (hs e he)]
    · rw [hr'.toList_eq, hread.toList_eq, ← hreq, ← Journal.receivedOn_own]
      rw [List.flatMap_congr fun e he => Event.receivedOn_of_only (hs e he)]

def partOfALine : Script where
  upcoming := [{ reads := [.data [7]], writes := [.accepts 2, .fails "EAGAIN"] }]
  turns := [{}, { lookup := some none }, { result := .events [{ token := socketToken, writable := true }] }]

theorem run_is_lossless_part_of_a_line :
    Script.system.Bounded ∧ ∃ e b p q seg,
      create Script.system { host := "1.2.3.4", port := 1 } 0 { os := partOfALine } = .ok e ∧
      Buffers.create 4 = .ok b ∧ Reached Script.system (.idle e b) p ∧ Lives Script.system 0 p [1, 2, 3] [] q ∧
      q.cycle.world.journal = p.cycle.world.journal ++ seg ∧
      seg.sentOn 0 = [1, 2] ∧ q.cycle.buffers.write.toList = [3] ∧ seg.receivedOn 0 = [7] := by
  have hS := Script.system_bounded
  refine ⟨hS, ?_⟩
  obtain ⟨e, he⟩ : ∃ e, create Script.system { host := "1.2.3.4", port := 1 } 0 { os := partOfALine } = .ok e := ⟨_, rfl⟩
  obtain ⟨b, hb⟩ : ∃ b, Buffers.create 4 = .ok b := ⟨_, rfl⟩
  have heval : (do
      let (_, e, b) ← e.cycle Script.system b 0 none
      let (_, e, b) ← e.cycle Script.system b 0 none
      let (_, e, b) ← e.cycle Script.system b 0 none
      let c ← Cycle.beforeWait Script.system 0
        ⟨e.connection, { b with write := (b.write.put [1, 2, 3]).1 }, e.world, {}⟩
      return (e.connection.phase, (b.write.put [1, 2, 3]).2,
        [b.read.toList, b.write.toList, c.buffers.read.toList, c.buffers.write.toList])) =
          .ok (.connected 0 ⟨.v4 1 2 3 4, 1, 0⟩, 3, [[], [], [7], [3]]) := by
    obtain rfl := Except.ok.inj he
    obtain rfl := Except.ok.inj hb
    decide +kernel
  obtain ⟨_, e₁, b₁, h₁⟩ := cycle_isOk hS e b 0 none
  obtain ⟨_, e₂, b₂, h₂⟩ := cycle_isOk hS e₁ b₁ 0 none
  obtain ⟨_, e₃, b₃, h₃⟩ := cycle_isOk hS e₂ b₂ 0 none
  obtain ⟨c, hc⟩ := Cycle.beforeWait_isOk hS 0
    ⟨e₃.connection, { b₃ with write := (b₃.write.put [1, 2, 3]).1 }, e₃.world, {}⟩
  simp only [h₁, h₂, h₃, hc, bind, Except.bind, pure, Except.pure, Except.ok.injEq, Prod.mk.injEq,
    List.cons.injEq] at heval
  obtain ⟨hphase, hput, hr, hw, hr', hw', -⟩ := heval
  have hp : Reached Script.system (.idle e b) (.idle e₃ b₃) :=
    ((Reached.start.steps (cycle_steps h₁)).steps (cycle_steps h₂)).steps (cycle_steps h₃)
  have hs : (Point.idle e₃ b₃).cycle.onLink 0 := ⟨_, hphase⟩
  have hl := (Lives.made (S := Script.system) hs).put hs [1, 2, 3]
  rw [hput] at hl
  have hq := hl.step hs (.begin none hc)
  obtain ⟨-, -, -, -, -, -, h⟩ := run_is_lossless hS he hb hp
  obtain ⟨seg, hj, hsent, hreceived⟩ := h 0 _ _ _ hq
  refine ⟨e, b, _, _, seg, he, hb, hp, hq, hj, ?_, hw', ?_⟩
  · change _ ++ c.buffers.write.toList = b₃.write.toList ++ [1, 2, 3] at hsent
    rw [hw, hw'] at hsent
    exact List.append_cancel_right hsent
  · change b₃.read.toList ++ _ = [] ++ c.buffers.read.toList at hreceived
    rwa [hr, hr'] at hreceived

end Engine

end IrcLink
