import IrcLink.Proofs.Engine.Happenings
import IrcLink.Proofs.Engine.Lossless
import IrcLink.Proofs.Journal.Sockets

/-!
A socket is reported only when it becomes ready, so an engine that waits must have taken all there was, or be watched anew
for it; and it must not be watched for writing when it has nothing to write, or it would be woken for nothing.
-/

namespace IrcLink

theorem Event.touches_of_isAside {e : Event} (h : e.isAside = true) : e.touches = false := by
  unfold touches
  split
  all_goals first | rfl | simp [isAside] at h

namespace Cycle

variable {ω : Type} {S : System ω} {now : Nat} {c c' : Cycle ω} {s : Socket} {peer : SocketAddress}

/-- A connection knows how its socket is watched. Without a connection there is nothing to know. -/
structure Tuned (c : Cycle ω) : Prop where
  linked : ∀ s peer, c.connection.phase = .connected s peer →
    c.world.journal.watched? s = some ⟨socketToken, if c.connection.writeInterest then .readWrite else .read⟩
  unlinked : c.connection.state ≠ .connected → c.connection.flow = {} ∧ c.connection.writeInterest = false

namespace Tuned

theorem congr (hc : Tuned c) (hphase : c'.connection.phase = c.connection.phase)
    (hinterest : c'.connection.writeInterest = c.connection.writeInterest)
    (hflow : c.connection.state ≠ .connected → c'.connection.flow = c.connection.flow)
    (hw : ∀ s, World.Only (·.watch? s = none) c.world c'.world) : Tuned c' := by
  constructor
  · intro s peer hp
    rw [(hw s).watched_eq, hinterest]
    exact hc.linked s peer (hphase.symm.trans hp)
  · intro hu
    have hu' : c.connection.state ≠ .connected := by rwa [← Stage.state_eq_of_phase hphase]
    rw [hflow hu', hinterest]
    exact hc.unlinked hu'

theorem of_flow (hc : Tuned c) (hlinked : c.connection.phase = .connected s peer)
    (hphase : c'.connection.phase = c.connection.phase)
    (hinterest : c'.connection.writeInterest = c.connection.writeInterest)
    (hw : ∀ s, World.Only (·.watch? s = none) c.world c'.world) : Tuned c' :=
  hc.congr hphase hinterest (fun hu => absurd (Connection.state_eq_connected.mpr ⟨s, peer, hlinked⟩) hu) hw

theorem of_unlinked (hp : ∀ s peer, c.connection.phase ≠ .connected s peer) (hf : c.connection.flow = {})
    (hi : c.connection.writeInterest = false) : Tuned c :=
  ⟨fun s peer hphase => absurd hphase (hp s peer), fun _ => ⟨hf, hi⟩⟩

end Tuned

theorem onLookup_tuned (hc : Tuned c) (r : Resolution) : Tuned (c.onLookup now r) := by
  unfold onLookup
  split
  · rename_i hphase
    obtain ⟨hf, hi⟩ := hc.unlinked (Connection.state_ne_connected (by rw [hphase]; nofun))
    exact .of_unlinked nofun hf hi
  · rename_i hphase _
    obtain ⟨hf, hi⟩ := hc.unlinked (Connection.state_ne_connected (by rw [hphase]; nofun))
    exact .of_unlinked nofun hf hi
  · exact hc

theorem Tries.tuned {addresses : List SocketAddress} (h : Tries S now addresses c c')
    (hs : c.connection.state ≠ .connected) (hc : Tuned c) : Tuned c' := by
  obtain ⟨hf, hi⟩ := hc.unlinked hs
  refine .of_unlinked ?_ (h.flow_eq.trans hf) (h.writeInterest_eq.trans hi)
  obtain hphase | ⟨_, _, _, _, hphase, -⟩ := h.ended
  · rw [hphase]
    nofun
  · rw [hphase]
    nofun

theorem Works.tuned (h : Works S now c c') (hc : Tuned c) : Tuned c' := by
  cases h with
  | aside h =>
    refine hc.congr rfl rfl (fun _ => rfl) ?_
    intro s
    exact h.only.mono fun _ ha => Event.watch_of_touches s (Event.touches_of_isAside ha)
  | receives hphase h =>
    obtain ⟨t, ht, -, rfl⟩ := receive_ok h
    refine hc.of_flow hphase rfl rfl ?_
    intro s'
    have hr := (Transfer.receive_calls ht).only.mono fun _ hs => Event.watch_of_touches s' (Event.touches_of_stream hs)
    exact hr.trans (.of_does (World.record_does S _ rfl) rfl)
  | transmits hphase h =>
    obtain ⟨t, ht, -, rfl⟩ := transmit_ok h
    refine hc.of_flow hphase rfl rfl ?_
    intro s'
    exact (Transfer.transmit_calls ht).only.mono fun _ hs => Event.watch_of_touches s' (Event.touches_of_stream hs)
  | rearms hphase => exact hc.of_flow hphase rfl rfl fun _ => .refl _
  | mayWrite hphase => exact hc.of_flow hphase rfl rfl fun _ => .refl _
  | @watches s peer world hphase h =>
    constructor
    · intro s' peer' hp
      obtain ⟨rfl, -⟩ := Phase.connected.inj (hphase.symm.trans hp)
      exact World.watched_reregister h
    · intro hu
      exact absurd (Connection.state_eq_connected.mpr ⟨s, peer, hphase⟩) hu
  | loses => exact .of_unlinked nofun rfl rfl
  | connects hphase h =>
    constructor
    · intro s' peer' hp
      obtain ⟨rfl, -⟩ := Phase.connected.inj hp
      exact World.watched_reregister h
    · intro hu
      exact absurd rfl hu
  | dials hstate =>
    have hs : c.connection.state ≠ .connected := by
      obtain hstate | hstate := hstate
      all_goals
        rw [hstate]
        nofun
    exact (nextAddress_tries S now hstate).tuned hs hc

theorem Happens.tuned (h : Happens S now c c') (hc : Tuned c) : Tuned c' := by
  cases h with
  | works h => exact h.tuned hc
  | looks => exact hc.congr rfl rfl (fun _ => rfl) fun _ => .of_does (World.takeStop_does S c.world) rfl
  | @collects r world h =>
    suffices hc' : Tuned { c with world } from onLookup_tuned hc' r
    refine hc.congr rfl rfl (fun _ => rfl) ?_
    intro s
    have hv : c.world.Via S (·.watch? s = none) (c.world.collect S).2 := World.collect_via S c.world fun _ => rfl
    rw [h] at hv
    exact hv.only
  | asks hphase hdue =>
    obtain ⟨hf, hi⟩ := hc.unlinked (Connection.state_ne_connected (by rw [hphase]; nofun))
    have ha : Asks S now c (c.afterEvents S now (World.startLookup S)) := afterEvents_asks hphase hdue
    refine .of_unlinked ?_ (ha.flow_eq.trans hf) (ha.writeInterest_eq.trans hi)
    obtain hended | hended := ha.ended
    · rw [hended]
      nofun
    · rw [hended]
      nofun

/-- What has come and was not read will wake the engine: there is no room for it, or the socket has said that nothing is
left, or it is watched anew since it was read last. -/
inductive ReadsOn (s : Socket) (c : Cycle ω) (es : List Event) : Prop
  | full (h : c.buffers.read.free = 0)
  | dry (room : Nat) (h : .call (.read s room) .wouldBlock ∈ es)
  | rearmed {before after : List Event} {i : Interest}
      (h : es = before ++ .call (.reregister s socketToken i) (.ok ()) :: after)
      (hafter : ∀ room a, Event.call (.read s room) a ∉ after)

theorem receiveIfRoom_reads (hr : c.buffers.read.WellFormed) {anew : Bool}
    (h : c.receiveIfRoom S s = .ok (true, anew, c')) :
    c'.buffers.read.free = 0 ∨ anew = true ∨
      ∃ es room, c.world.Does es c'.world ∧ .call (.read s room) .wouldBlock ∈ es := by
  unfold receiveIfRoom at h
  split at h
  · rename_i hfree
    obtain ⟨-, rfl⟩ := by simpa using h
    exact .inl hfree
  · split at h
    · obtain ⟨rfl, -⟩ := by simpa using h
      exact .inr (.inl rfl)
    · obtain ⟨⟨alive, c₁⟩, hc, h⟩ := Fault.map_eq_ok.mp h
      obtain ⟨halive, rfl, rfl⟩ := by simpa using h
      obtain ⟨t, ht, hstop, rfl⟩ := receive_ok hc
      obtain ⟨es, hd, hring, hblock, -⟩ := Transfer.receive_stops ht
      obtain ⟨_, _, -, -, hholds⟩ := Transfer.receive_moves ht
      have hwf : t.ring.WellFormed := (hholds _ _ ⟨hr, rfl, rfl⟩).wellFormed
      cases ht' : t.stop with
      | ring => exact .inl ((Ring.writeSpanLength_eq_zero hwf).mp (hring ht'))
      | wouldBlock =>
        obtain ⟨room, hmem⟩ := hblock ht'
        exact .inr (.inr ⟨_, room, hd.trans (World.record_does S _ rfl), List.mem_append_left _ hmem⟩)
      | lost =>
        rw [halive, ht'] at hstop
        exact absurd hstop nofun

theorem transmitIfQueued_writes (h : c.transmitIfQueued S s = .ok (true, c')) :
    (c'.connection.flow.writeFull = true ↔ c'.buffers.write.isEmpty = false) ∧ c'.buffers.read = c.buffers.read := by
  unfold transmitIfQueued at h
  split at h
  · rename_i hempty
    obtain rfl := by simpa using h
    exact ⟨by simp [setFlow, hempty], rfl⟩
  · rename_i hqueued
    split at h
    · rename_i hfull
      obtain rfl := by simpa using h
      exact ⟨by simp [hfull, hqueued], rfl⟩
    · obtain ⟨t, ht, hstop, rfl⟩ := transmit_ok h
      obtain ⟨hring, hblock⟩ := Transfer.transmit_stops ht
      refine ⟨?_, rfl⟩
      cases ht' : t.stop with
      | ring => simp [Flow.transmitted, hring ht']
      | wouldBlock => simp [Flow.transmitted, hblock ht']
      | lost => simp [ht'] at hstop

theorem watch_watches {anew : Bool} (h : (c.watch S s anew).1 = true) :
    let c' := (c.watch S s anew).2
    c'.connection.writeInterest = c.connection.flow.writeFull ∧ c'.connection.flow = c.connection.flow ∧
      c'.buffers = c.buffers ∧ ∃ es, c.world.Does es c'.world ∧
        (anew = true → ∃ i, es = [.call (.reregister s socketToken i) (.ok ())]) := by
  have hd := World.call_does S c.world
    (c := .reregister s socketToken (if c.connection.flow.writeFull then .readWrite else .read)) nofun
  unfold watch at h ⊢
  dsimp only at h ⊢
  split
  · rename_i hneed
    split
    · rename_i hc
      rw [hc] at hd
      exact ⟨rfl, rfl, rfl, _, hd, fun _ => ⟨_, rfl⟩⟩
    · rename_i hc
      rw [if_pos hneed, hc] at h
      exact absurd h nofun
  · rename_i hneed
    obtain ⟨hanew, hsame⟩ := by simpa using hneed
    exact ⟨hsame.symm, rfl, rfl, [], .refl _, fun ht => absurd (hanew.symm.trans ht) nofun⟩

theorem beforeWait_watches (hc : Tuned c) (hr : c.buffers.read.WellFormed) (h : c.beforeWait S now = .ok c')
    (hphase : c'.connection.phase = .connected s peer) :
    (c'.connection.flow.writeFull = true ↔ c'.buffers.write.isEmpty = false) ∧
      c'.world.journal.watched? s = some ⟨socketToken, if c'.connection.flow.writeFull then .readWrite else .read⟩ ∧
      c'.connection.writeInterest = c'.connection.flow.writeFull ∧ ∃ es, c.world.Does es c'.world ∧ ReadsOn s c' es := by
  have hup : c.connection.phase = .connected s peer := by
    by_cases hs : c.connection.state = .connected
    · obtain ⟨s', peer', hp⟩ := Connection.state_eq_connected.mp hs
      cases beforeWait_staysOrLoses hp h with
      | stays hs => exact hs.phase_eq.symm.trans hphase
      | loses => exact absurd hphase nofun
    · obtain rfl := beforeWait_unlinked hs h
      exact hphase
  have hc' : Tuned c' := (beforeWait_work h).path.keeps (fun hh => hh.tuned) hc
  obtain ⟨alive, anew, c₁, hread, ⟨-, rfl⟩ | ⟨rfl, h⟩⟩ := beforeWait_connected hup h
  · exact absurd hphase nofun
  obtain ⟨alive, c₂, hwrite, ⟨-, rfl⟩ | ⟨rfl, h⟩⟩ := sendAndWatch_ok h
  · exact absurd hphase nofun
  cases hw : (c₂.watch S s anew).1 with
  | false =>
    rw [h, hw] at hphase
    exact absurd hphase nofun
  | true =>
    rw [hw, if_pos rfl] at h
    obtain ⟨hi, hflow, hbuffers, es₃, hd₃, hanew⟩ := watch_watches hw
    rw [← h] at hi hflow hbuffers hd₃
    obtain ⟨hfull, hsame⟩ := transmitIfQueued_writes hwrite
    obtain ⟨es₂, m₂⟩ : Carries (· = s) c₁ c₂ := transmitIfQueued_carries rfl hwrite
    have hinterest : c'.connection.writeInterest = c'.connection.flow.writeFull := by rw [hi, hflow]
    refine ⟨?_, ?_, hinterest, ?_⟩
    · rwa [hflow, hbuffers]
    · rw [← hinterest]
      exact hc'.linked s peer hphase
    · obtain hfree | rfl | ⟨es₁, room, hd₁, hmem⟩ := receiveIfRoom_reads hr hread
      · obtain ⟨es₁, m₁⟩ : Carries (· = s) c c₁ := receiveIfRoom_carries rfl hread
        refine ⟨_, (m₁.does.trans m₂.does).trans hd₃, .full ?_⟩
        rwa [hbuffers, hsame]
      · obtain ⟨es₁, m₁⟩ : Carries (· = s) c c₁ := receiveIfRoom_carries rfl hread
        obtain ⟨i, rfl⟩ := hanew rfl
        exact ⟨_, (m₁.does.trans m₂.does).trans hd₃, .rearmed rfl nofun⟩
      · refine ⟨_, (hd₁.trans m₂.does).trans hd₃, .dry room ?_⟩
        exact List.mem_append_left _ (List.mem_append_left _ hmem)

end Cycle

namespace Engine

open IrcLink.Cycle

variable {ω : Type} {S : System ω}

/-- Where a run comes to, whatever its caller does with the buffers between two cycles. -/
inductive Visited (S : System ω) (first : Engine ω) : Point ω → Prop
  | start {b : Buffers} (hb : b.read.WellFormed) : Visited S first (.idle first b)
  | step {p q : Point ω} (hp : Visited S first p) (h : Step S p q) : Visited S first q
  | use {e : Engine ω} {b b' : Buffers} (hp : Visited S first (.idle e b)) (hb : b'.read.WellFormed) :
      Visited S first (.idle e b')

theorem Step.tuned {p q : Point ω} (h : Step S p q) (hp : p.cycle.Tuned) : q.cycle.Tuned := by
  obtain ⟨now, c, hc, hconnection, hworld⟩ | ⟨now, timeout, c, waited, rfl, hwait, hconnection⟩ := h.cases
  · have ht : c.Tuned := hc.keeps (fun hh => hh.tuned) hp
    refine ht.congr (by rw [hconnection]) (by rw [hconnection]) (fun _ => by rw [hconnection]) fun s => ?_
    rw [hworld]
    exact .refl _
  · have hd := World.wait_does S hwait
    have hp : c.Tuned := hp
    exact hp.congr (by rw [hconnection]) (by rw [hconnection]) (fun _ => by rw [hconnection]) fun s => .of_does hd rfl

theorem Visited.tuned {first : Engine ω} {p : Point ω} (hf : ∀ b, (Point.idle first b).cycle.Tuned)
    (hp : Visited S first p) : p.cycle.Tuned ∧ p.cycle.buffers.read.WellFormed := by
  induction hp with
  | @start b hb => exact ⟨hf b, hb⟩
  | step _ h ih =>
    obtain ⟨ht, hr⟩ := ih
    obtain ⟨es, m⟩ := h.carries
    exact ⟨h.tuned ht, (m.read _ _ ⟨hr, rfl, rfl⟩).wellFormed⟩
  | use _ hb ih =>
    obtain ⟨ht, -⟩ := ih
    exact ⟨⟨ht.linked, ht.unlinked⟩, hb⟩

theorem create_tuned {settings : LinkSettings} {now : Nat} {w : World ω} {e : Engine ω}
    (he : create S settings now w = .ok e) (b : Buffers) : (Point.idle e b).cycle.Tuned := by
  have hc : (Point.idle e b).cycle.connection = .create settings now := create_connection he
  refine .of_unlinked ?_ ?_ ?_
  all_goals rw [hc]
  · nofun
  · rfl
  · rfl

theorem waits_are_tuned {settings : LinkSettings} {start : Nat} {w : World ω} {first : Engine ω}
    (hfirst : create S settings start w = .ok first) :
    (∀ p, Visited S first p → p.cycle.connection.state ≠ .connected →
      p.cycle.connection.flow = {} ∧ p.cycle.connection.writeInterest = false) ∧
    ∀ e b now timeout c s peer, Visited S first (.idle e b) → Step S (.idle e b) (.waiting now timeout c) →
      c.connection.phase = .connected s peer →
      (c.buffers.write.isEmpty = false ↔ c.connection.flow.writeFull = true) ∧
      (c.connection.flow.writeFull = true ↔ c.world.journal.watched? s = some ⟨socketToken, .readWrite⟩) ∧
      c.connection.writeInterest = c.connection.flow.writeFull ∧
      ∃ es, e.world.Does es c.world ∧ ReadsOn s c es := by
  constructor
  · intro p hp hu
    exact (hp.tuned (create_tuned hfirst)).1.unlinked hu
  · intro e b now timeout c s peer hp h hphase
    obtain ⟨ht, hr⟩ := hp.tuned (create_tuned hfirst)
    cases h with
    | begin _ h =>
      obtain ⟨hfull, hwatched, hinterest, hreads⟩ := beforeWait_watches ht hr h hphase
      refine ⟨hfull.symm, ?_, hinterest, hreads⟩
      rw [hwatched]
      cases c.connection.flow.writeFull <;> simp

theorem Visited.steps {first : Engine ω} {p q : Point ω} (hp : Visited S first p)
    (h : Relation.ReflTransGen (Step S) p q) : Visited S first q := by
  induction h with
  | refl => exact hp
  | tail _ h ih => exact ih.step h

theorem waits_are_tuned_part_of_a_line :
    ∃ first e b c es, create Script.system { host := "1.2.3.4", port := 1 } 0 { os := partOfALine } = .ok first ∧
      Visited Script.system first (.idle e b) ∧ Step Script.system (.idle e b) (.waiting 0 none c) ∧
      c.connection.phase = .connected 0 ⟨.v4 1 2 3 4, 1, 0⟩ ∧ c.buffers.write.isEmpty = false ∧
      c.connection.writeInterest = true ∧ c.world.journal.watched? 0 = some ⟨socketToken, .readWrite⟩ ∧
      e.world.Does es c.world ∧ ReadsOn 0 c es := by
  have hS := Script.system_bounded
  obtain ⟨e, he⟩ : ∃ e, create Script.system { host := "1.2.3.4", port := 1 } 0 { os := partOfALine } = .ok e := ⟨_, rfl⟩
  obtain ⟨b, hb⟩ : ∃ b, Buffers.create 4 = .ok b := ⟨_, rfl⟩
  have heval : (do
      let (_, e, b) ← e.cycle Script.system b 0 none
      let (_, e, b) ← e.cycle Script.system b 0 none
      let (_, e, b) ← e.cycle Script.system b 0 none
      let c ← Cycle.beforeWait Script.system 0
        ⟨e.connection, { b with write := (b.write.put [1, 2, 3]).1 }, e.world, {}⟩
      return (c.connection.phase, c.buffers.write.isEmpty)) = .ok (.connected 0 ⟨.v4 1 2 3 4, 1, 0⟩, false) := by
    obtain rfl := Except.ok.inj he
    obtain rfl := Except.ok.inj hb
    decide +kernel
  obtain ⟨_, e₁, b₁, h₁⟩ := cycle_isOk hS e b 0 none
  obtain ⟨_, e₂, b₂, h₂⟩ := cycle_isOk hS e₁ b₁ 0 none
  obtain ⟨_, e₃, b₃, h₃⟩ := cycle_isOk hS e₂ b₂ 0 none
  obtain ⟨c, hc⟩ := Cycle.beforeWait_isOk hS 0
    ⟨e₃.connection, { b₃ with write := (b₃.write.put [1, 2, 3]).1 }, e₃.world, {}⟩
  simp only [h₁, h₂, h₃, hc, bind, Except.bind, pure, Except.pure, Except.ok.injEq, Prod.mk.injEq] at heval
  obtain ⟨hphase, hqueued⟩ := heval
  obtain ⟨_, hread⟩ := (counted_of_create he hb).read
  have hp : Visited Script.system e (.idle e₃ b₃) :=
    (((Visited.start hread.wellFormed).steps (cycle_steps h₁)).steps (cycle_steps h₂)).steps (cycle_steps h₃)
  have hwf : b₃.read.WellFormed := (hp.tuned (create_tuned he)).2
  have hq : Visited Script.system e (.idle e₃ { b₃ with write := (b₃.write.put [1, 2, 3]).1 }) := hp.use hwf
  have hs := Step.begin (S := Script.system) none hc
  obtain ⟨hfull, hwatched, hinterest, es, hd, hreads⟩ := (waits_are_tuned he).2 _ _ _ _ _ _ _ hq hs hphase
  have hf := hfull.mp hqueued
  exact ⟨e, _, _, c, es, he, hq, hs, hphase, hqueued, hinterest.trans hf, hwatched.mp hf, hd, hreads⟩

end Engine

end IrcLink
