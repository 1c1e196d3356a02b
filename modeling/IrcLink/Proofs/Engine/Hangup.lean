import IrcLink.Proofs.Engine.Lossless

/-!
What has come ahead of a hangup is read before the connection is given up, as far as there is room for it. The connection is
given up in the same step, so what finds no room is lost, though the caller would have made room before the next.
-/

namespace IrcLink

/-- `pending` is what has come on this socket and was not read. Reads give it in order, each some of it and no more than there
is room for; when it is all read, no read gives more. A read that is interrupted leaves it as it was. -/
structure System.Delivers {ω : Type} (S : System ω) (s : Socket) (pending : ω → Bytes) : Prop where
  gives : ∀ room os, room ≠ 0 → pending os ≠ [] → (S.answer (.read s room) os).1 ≠ .interrupted →
    ∃ n, 0 < n ∧ n ≤ room ∧ n ≤ (pending os).length ∧
      (S.answer (.read s room) os).1 = .bytes ((pending os).take n) ∧
      pending (S.answer (.read s room) os).2 = (pending os).drop n
  ends : ∀ room os data, pending os = [] → (S.answer (.read s room) os).1 = .bytes data → data = []
  interrupted : ∀ room os, (S.answer (.read s room) os).1 = .interrupted →
    pending (S.answer (.read s room) os).2 = pending os
  meanwhile : ∀ room os, pending (S.meanwhile (some (.read s room)) os).2 = pending os
  wake : ∀ os, pending (S.answer .wake os).2 = pending os

section

variable {ω : Type} {S : System ω} {s : Socket} {pending : ω → Bytes} {C : Nat} {q : Bytes}

theorem World.deeds_pending (hS : S.Delivers s pending) (ds : List Deed) (w : World ω) :
    pending (ds.foldl (World.act S) w).os = pending w.os := by
  induction ds generalizing w with
  | nil => rfl
  | cons d ds ih =>
    rw [List.foldl_cons, ih]
    cases d with
    | requestStop => rfl
    | finishLookup found =>
      simp only [act]
      split <;> rfl
    | wake =>
      simp only [act]
      split
      · rfl
      · exact hS.wake _

theorem World.letOthersAct_pending (hS : S.Delivers s pending) (w : World ω) (room : Nat) :
    pending (w.letOthersAct S (some (.read s room))).os = pending w.os :=
  (World.deeds_pending hS _ _).trans (hS.meanwhile room w.os)

namespace Transfer

variable {ring : Ring} {w : World ω}

theorem receiveOnce_pending (hS : S.Delivers s pending) {w' : World ω} (h : receiveOnce S s ring w = .ok (.interrupted w')) :
    pending w'.os = pending w.os := by
  obtain ⟨ha, rfl⟩ := Prod.mk.inj (receiveOnce_interrupted S s h)
  exact (hS.interrupted _ _ ha).trans (World.letOthersAct_pending hS w ring.writeSpanLength)

theorem receiveOnce_gives (hS : S.Delivers s pending) (hspan : ring.writeSpanLength ≠ 0) (hp : pending w.os ≠ []) :
    (∃ w', receiveOnce S s ring w = .ok (.interrupted w')) ∨
      ∃ n w', 0 < n ∧ n ≤ ring.writeSpanLength ∧ n ≤ (pending w.os).length ∧ pending w'.os = (pending w.os).drop n ∧
        receiveOnce S s ring w =
          .ok (.passed (.moved n ((ring.overwriteSpan ((pending w.os).take n)).advanceTail n) w')) := by
  have hsame := World.letOthersAct_pending hS w ring.writeSpanLength
  cases hc : w.call S (.read s ring.writeSpanLength) with
  | mk a w' =>
    by_cases hi : a = .interrupted
    · exact .inl ⟨w', by simp only [receiveOnce, if_neg hspan, hc, hi]⟩
    · right
      obtain ⟨rfl, rfl⟩ := Prod.mk.inj hc
      obtain ⟨n, hpos, hroom, hlen, hres, hleft⟩ := hS.gives ring.writeSpanLength
        (w.letOthersAct S (some (.read s ring.writeSpanLength))).os hspan (by rwa [hsame]) hi
      rw [hsame] at hlen hres hleft
      have hdata : ((pending w.os).take n).length = n := by rw [List.length_take, Nat.min_eq_left hlen]
      have hne : (pending w.os).take n ≠ [] := by
        intro hnil
        rw [hnil, List.length_nil] at hdata
        omega
      refine ⟨n, (w.call S (.read s ring.writeSpanLength)).2, hpos, hroom, hlen, hleft, ?_⟩
      have hcall : w.call S (.read s ring.writeSpanLength) =
          (.bytes ((pending w.os).take n), (w.call S (.read s ring.writeSpanLength)).2) := Prod.ext hres rfl
      simp only [receiveOnce, if_neg hspan]
      rw [hcall]
      obtain ⟨b, data, hcons⟩ := List.exists_cons_of_ne_nil hne
      rw [hcons] at hdata ⊢
      dsimp only
      rw [hdata, Ring.reserve_eq_ok (by rwa [Ring.overwriteSpan_writeSpanLength])]
      rfl

theorem receivePass_gives (hS : S.Delivers s pending) (hspan : ring.writeSpanLength ≠ 0) (hp : pending w.os ≠ []) :
    ∃ n w', 0 < n ∧ n ≤ ring.writeSpanLength ∧ n ≤ (pending w.os).length ∧ pending w'.os = (pending w.os).drop n ∧
      receivePass S s ring w =
        .ok (.moved n ((ring.overwriteSpan ((pending w.os).take n)).advanceTail n) w') := by
  fun_induction receivePass S s ring w with
  | case1 w f hf =>
    obtain ⟨w', h⟩ | ⟨_, _, -, -, -, -, h⟩ := receiveOnce_gives hS hspan hp
    all_goals
      rw [hf] at h
      simp at h
  | case2 w p hpass =>
    obtain ⟨w', h⟩ | ⟨n, w', hpos, hroom, hlen, hleft, h⟩ := receiveOnce_gives hS hspan hp
    · rw [hpass] at h
      simp at h
    · rw [hpass] at h
      exact ⟨n, w', hpos, hroom, hlen, hleft, congrArg Except.ok (Try.passed.inj (Except.ok.inj h))⟩
  | case3 w w₁ hi ih =>
    rw [← receiveOnce_pending hS hi] at hp ⊢
    exact ih hp

theorem receiveOnce_ends (hS : S.Delivers s pending) (hspan : ring.writeSpanLength ≠ 0) (hp : pending w.os = []) :
    (∃ w', receiveOnce S s ring w = .ok (.interrupted w')) ∨
      ∃ stop w', receiveOnce S s ring w = .ok (.passed (.stopped stop w')) := by
  have hsame := World.letOthersAct_pending hS w ring.writeSpanLength
  have hends : ∀ data, (w.call S (.read s ring.writeSpanLength)).1 = .bytes data → data = [] :=
    fun data => hS.ends _ _ data (by rwa [hsame])
  simp only [receiveOnce, if_neg hspan]
  split
  · exact .inr ⟨_, _, rfl⟩
  · rename_i data w' hne h
    exact absurd (hends data (congrArg Prod.fst h)) (fun hnil => hne hnil)
  · exact .inl ⟨_, rfl⟩
  · exact .inr ⟨_, _, rfl⟩
  · exact .inr ⟨_, _, rfl⟩

theorem receivePass_ends (hS : S.Delivers s pending) (hspan : ring.writeSpanLength ≠ 0) (hp : pending w.os = []) :
    ∃ stop w', receivePass S s ring w = .ok (.stopped stop w') := by
  fun_induction receivePass S s ring w with
  | case1 w f hf =>
    obtain ⟨w', h⟩ | ⟨_, _, h⟩ := receiveOnce_ends hS hspan hp
    all_goals
      rw [hf] at h
      simp at h
  | case2 w p hpass =>
    obtain ⟨w', h⟩ | ⟨stop, w', h⟩ := receiveOnce_ends hS hspan hp
    all_goals rw [hpass] at h
    · simp at h
    · exact ⟨stop, w', congrArg Except.ok (Try.passed.inj (Except.ok.inj h))⟩
  | case3 w w₁ hi ih => exact ih (by rwa [receiveOnce_pending hS hi])

theorem receive_takes (hS : S.Delivers s pending) (hq : ring.Holds C q) :
    ∃ t, receive S s ring w = .ok t ∧ t.ring.Holds C (q ++ (pending w.os).take (C - q.length)) := by
  -- by the room that is left, of which every pass that gives anything takes a part
  induction hfree : C - q.length using Nat.strongRecOn generalizing ring w q with
  | ind free ih =>
    by_cases hspan : ring.writeSpanLength = 0
    · have hzero : free = 0 := by
        rw [← hfree, ← hq.free_eq]
        exact (Ring.writeSpanLength_eq_zero hq.wellFormed).mp hspan
      have hpass : receivePass S s ring w = .ok (.stopped .ring w) := receivePass_full hspan
      refine ⟨_, receive_of_stopped hpass, ?_⟩
      rw [hzero, List.take_zero, List.append_nil]
      exact hq
    · by_cases hp : pending w.os = []
      · obtain ⟨stop, w', hpass⟩ := receivePass_ends hS hspan hp
        refine ⟨_, receive_of_stopped hpass, ?_⟩
        rw [hp, List.take_nil, List.append_nil]
        exact hq
      · obtain ⟨n, w', hpos, hroom, hlen, hleft, hpass⟩ := receivePass_gives hS hspan hp
        have hdata : ((pending w.os).take n).length = n := by rw [List.length_take, Nat.min_eq_left hlen]
        have hfill : ((ring.overwriteSpan ((pending w.os).take n)).advanceTail n).Holds C
            (q ++ (pending w.os).take n) := by
          have h := hq.fill (show ((pending w.os).take n).length ≤ ring.writeSpanLength by rwa [hdata])
          rwa [hdata] at h
        have hle := hq.writeSpanLength_le
        have hrest : C - (q ++ (pending w.os).take n).length = free - n := by
          rw [List.length_append, hdata]
          omega
        obtain ⟨t, ht, hholds⟩ : ∃ t, receive S s _ w' = .ok t ∧
            t.ring.Holds C (q ++ (pending w.os).take n ++ (pending w'.os).take (free - n)) :=
          ih (free - n) (by omega) hfill hrest
        rw [receive_of_moved hpass, ht]
        refine ⟨_, rfl, ?_⟩
        have htake : (pending w.os).take free = (pending w.os).take n ++ (pending w'.os).take (free - n) := by
          rw [hleft, ← List.take_add]
          congr 1
          omega
        rw [htake, ← List.append_assoc]
        exact hholds

end Transfer

namespace Cycle

variable {now : Nat} {c c' : Cycle ω} {peer : SocketAddress} {e : Readiness}

theorem receive_takes (hS : S.Delivers s pending) (hq : c.buffers.read.Holds C q) :
    ∃ alive c', c.receive S s = .ok (alive, c') ∧
      c'.buffers.read.Holds C (q ++ (pending c.world.os).take (C - q.length)) := by
  obtain ⟨t, ht, hholds⟩ : ∃ t, Transfer.receive S s c.buffers.read c.world = .ok t ∧
      t.ring.Holds C (q ++ (pending c.world.os).take (C - q.length)) := Transfer.receive_takes hS hq
  rw [receive, ht]
  exact ⟨_, _, rfl, hholds⟩

theorem receiveReady_takes (hS : S.Delivers s pending) (hq : c.buffers.read.Holds C q) (hr : e.readable = true) :
    ∃ alive c', c.receiveReady S e s = .ok (alive, c') ∧
      c'.buffers.read.Holds C (q ++ (pending c.world.os).take (C - q.length)) := by
  unfold receiveReady
  split
  · exact receive_takes hS hq
  · rename_i hroom
    have hfree : C - q.length = 0 := by
      rw [← hq.free_eq]
      simpa [hr] using hroom
    refine ⟨true, c, rfl, ?_⟩
    rw [hfree, List.take_zero, List.append_nil]
    exact hq

theorem onConnected_hangs_up (hS : S.Delivers s pending) (hq : c.buffers.read.Holds C q) (hr : e.readable = true)
    (hc : e.closed = true) :
    ∃ c', c.onConnected S now e s = .ok c' ∧ c'.connection.state = .disconnected ∧ c'.outcome.disconnected = true ∧
      c'.buffers.read.Holds C (q ++ (pending c.world.os).take (C - q.length)) := by
  obtain ⟨alive, c₁, hready, hholds⟩ := receiveReady_takes hS hq hr
  have hlost (c₂ : Cycle ω) : (c₂.lose S now s).connection.state = .disconnected := rfl
  -- the end of the stream and the hangup come to the same: what was read stays, the rest goes with the socket
  cases alive with
  | false =>
    refine ⟨c₁.lose S now s, ?_, hlost _, rfl, hholds⟩
    rw [onConnected, hready]
    rfl
  | true =>
    refine ⟨{ c₁ with world := (c₁.world.call S (.takeError s)).2 }.lose S now s, ?_, hlost _, rfl, hholds⟩
    rw [onConnected, hready]
    change c₁.hangUpOrSend S now e s = _
    rw [hangUpOrSend, if_pos (by simp [hc])]

end Cycle

end

namespace Engine

open IrcLink.Cycle

variable {ω : Type} {S : System ω} {now : Nat}

/-- When a hangup is reported with something to read, the connection is lost at once, and of what has come the read buffer
has as much as there was room for: all of it exactly if all of it found room. -/
theorem hangup_takes_what_fits {s : Socket} {pending : ω → Bytes} (hS : S.Delivers s pending) {c : Cycle ω}
    {peer : SocketAddress} (hphase : c.connection.phase = .connected s peer) (hread : c.buffers.read.WellFormed)
    {e : Readiness} (ht : e.token = socketToken) (hr : e.readable = true) (hc : e.closed = true) :
    ∃ c', dispatch S now c e = .ok c' ∧ c'.connection.state = .disconnected ∧ c'.outcome.disconnected = true ∧
      c'.buffers.read.toList = c.buffers.read.toList ++ (pending c.world.os).take c.buffers.read.free ∧
      (c'.buffers.read.toList = c.buffers.read.toList ++ pending c.world.os ↔
        (pending c.world.os).length ≤ c.buffers.read.free) := by
  let r : Cycle ω := { c with world := c.world.record S (.handled e) }
  have hq : c.buffers.read.Holds c.buffers.read.capacity c.buffers.read.toList := ⟨hread, rfl, rfl⟩
  have hqr : r.buffers.read.Holds c.buffers.read.capacity c.buffers.read.toList := hq
  obtain ⟨c', hup, hstate, hlost, hholds⟩ : ∃ c', r.onConnected S now e s = .ok c' ∧ _ :=
    onConnected_hangs_up hS hqr hr hc
  have hdispatch : dispatch S now c e = .ok c' := by
    rw [← hup]
    simp [dispatch, ht, onEvent, hphase, r]
  rw [← hq.free_eq] at hholds
  refine ⟨c', hdispatch, hstate, hlost, hholds.toList_eq, ?_⟩
  rw [hholds.toList_eq, List.append_cancel_left_eq]
  constructor
  · intro hall
    rw [← hall]
    exact List.length_take_le _ _
  · exact List.take_of_length_le

end Engine

namespace Script

def available : List Reading → Bytes
  | .data bytes :: rest => bytes ++ available rest
  | .fails code :: rest => if code == "EINTR" then available rest else []
  | _ => []

theorem available_filter (reads : List Reading) : available (reads.filter (!isEmptyRead ·)) = available reads := by
  induction reads with
  | nil => rfl
  | cons r reads ih =>
    cases r with
    | data bytes =>
      cases bytes with
      | nil =>
        rw [List.filter_cons_of_neg (by simp [isEmptyRead]), ih]
        rfl
      | cons b bytes => rw [List.filter_cons_of_pos rfl, available, available, ih]
    | endOfStream => rfl
    | fails code => rw [List.filter_cons_of_pos rfl, available, available, ih]

theorem failedRead_eq_interrupted {code : ErrorCode} : failedRead code = .interrupted ↔ (code == "EINTR") = true := by
  by_cases h : code = "EINTR"
  · simp [failedRead, h]
  · by_cases h' : code = "EAGAIN" <;> simp [failedRead, h, h']

theorem readNext_gives {room : Nat} (hroom : room ≠ 0) (reads : List Reading) (h : available reads ≠ [])
    (hi : (readNext room reads).1 ≠ .interrupted) :
    ∃ n, 0 < n ∧ n ≤ room ∧ n ≤ (available reads).length ∧
      (readNext room reads).1 = .bytes ((available reads).take n) ∧
      available (readNext room reads).2 = (available reads).drop n := by
  rw [← available_filter] at h ⊢
  have hkept : ∀ r ∈ reads.filter (!isEmptyRead ·), isEmptyRead r = false := by simp
  unfold readNext at hi ⊢
  cases hreads : reads.filter (!isEmptyRead ·) with
  | nil => exact absurd (by rw [hreads]; rfl) h
  | cons r rest =>
    rw [hreads] at h hi hkept
    cases r with
    | endOfStream => exact absurd rfl h
    | fails code =>
      have hcode : (code == "EINTR") = true := by
        by_contra hcode
        exact h (if_neg hcode)
      exact absurd (failedRead_eq_interrupted.mpr hcode) hi
    | data bytes =>
      cases bytes with
      | nil => exact absurd (hkept _ List.mem_cons_self) nofun
      | cons b bytes =>
        dsimp only
        rw [available]
        by_cases hle : (b :: bytes).length ≤ room
        · refine ⟨(b :: bytes).length, Nat.succ_pos _, hle, ?_, ?_, ?_⟩
          · rw [List.length_append]
            omega
          · rw [List.take_left, List.take_of_length_le hle]
          · rw [if_pos hle, List.drop_left]
        · have hlt : room ≤ (b :: bytes).length := by omega
          refine ⟨room, by omega, Nat.le_refl _, ?_, ?_, ?_⟩
          · rw [List.length_append]
            omega
          · rw [List.take_append_of_le_length hlt]
          · rw [if_neg hle, available, List.drop_append_of_le_length hlt]

theorem readNext_ends {room : Nat} {data : Bytes} (reads : List Reading) (h : available reads = [])
    (hr : (readNext room reads).1 = .bytes data) : data = [] := by
  rw [← available_filter] at h
  unfold readNext at hr
  split at hr
  · simp at hr
  · rename_i bytes rest hreads
    rw [hreads, available] at h
    obtain rfl := (List.append_eq_nil_iff.mp h).1
    exact (Call.Received.bytes.inj hr).symm.trans List.take_nil
  · exact (Call.Received.bytes.inj hr).symm
  · exact absurd hr (failedRead_ne_bytes _ _)

theorem available_interrupted {room : Nat} {reads : List Reading} (h : (readNext room reads).1 = .interrupted) :
    available (readNext room reads).2 = available reads := by
  rw [← available_filter reads]
  unfold readNext at h ⊢
  cases hreads : reads.filter (!isEmptyRead ·) with
  | nil => rfl
  | cons r rest =>
    rw [hreads] at h
    cases r with
    | data bytes => simp at h
    | endOfStream => simp at h
    | fails code => exact (if_pos (failedRead_eq_interrupted.mp h)).symm

def pending (s : Socket) (p : Script) : Bytes := available (p.answersOf s).reads

theorem system_delivers (s : Socket) : system.Delivers s (pending s) where
  gives := by
    intro room p hroom hp hi
    obtain ⟨n, hpos, hle, hlen, hresult, hleft⟩ := readNext_gives hroom (p.answersOf s).reads hp hi
    have hs : p.answersOf s ≠ noAnswers := by
      intro hs
      rw [pending, hs] at hp
      exact hp rfl
    refine ⟨n, hpos, hle, hlen, hresult, ?_⟩
    rw [pending, pending, ← hleft]
    simp [system, answer, answersOf_setAnswers _ hs]
  ends := fun room p data hp hr => readNext_ends (p.answersOf s).reads hp hr
  interrupted := by
    intro room p hi
    have hi : (readNext room (p.answersOf s).reads).1 = .interrupted := hi
    have hs : p.answersOf s ≠ noAnswers := by
      intro hs
      simp [hs, noAnswers, readNext] at hi
    rw [pending, pending, ← available_interrupted hi]
    simp [system, answer, answersOf_setAnswers _ hs]
  meanwhile := fun _ _ => rfl
  wake := fun _ => rfl

end Script

namespace Engine

open IrcLink.Cycle

def hangup : Readiness := { token := socketToken, readable := true, closed := true }

def farewell : Script where
  upcoming := [{}]
  turns := [{}, { lookup := some none }, { result := .events [{ token := socketToken, writable := true }] },
    { more := some { reads := [.data [1, 2, 3, 4, 5, 6], .endOfStream] }, result := .events [hangup] }]

theorem farewell_ok : ∃ e b c c',
    create Script.system { host := "1.2.3.4", port := 1 } 0 { os := farewell } = .ok e ∧ Buffers.create 4 = .ok b ∧
    Reached Script.system (.idle e b) (.handling 0 c [hangup]) ∧ c.buffers.read.WellFormed ∧
    dispatch Script.system 0 c hangup = .ok c' ∧ c.connection.phase = .connected 0 ⟨.v4 1 2 3 4, 1, 0⟩ ∧
    c.buffers.read.toList = [] ∧ c.buffers.read.free = 4 ∧ Script.pending 0 c.world.os = [1, 2, 3, 4, 5, 6] ∧
    c'.buffers.read.toList = [1, 2, 3, 4] ∧ c'.connection.state = .disconnected := by
  have hS := Script.system_bounded
  obtain ⟨e, he⟩ : ∃ e, create Script.system { host := "1.2.3.4", port := 1 } 0 { os := farewell } = .ok e := ⟨_, rfl⟩
  obtain ⟨b, hb⟩ : ∃ b, Buffers.create 4 = .ok b := ⟨_, rfl⟩
  have heval : (do
      let (_, e, b) ← e.cycle Script.system b 0 none
      let (_, e, b) ← e.cycle Script.system b 0 none
      let (_, e, b) ← e.cycle Script.system b 0 none
      let c ← Cycle.beforeWait Script.system 0 ⟨e.connection, b, e.world, {}⟩
      let waited := c.world.wait Script.system c.connection.settings.eventCapacity (waitTimeout c.connection 0 none)
      let c := { c with world := waited.2 }
      let c' ← dispatch Script.system 0 c hangup
      return (waited.1, [c.connection.phase, c'.connection.phase], c.buffers.read.free,
        [c.buffers.read.toList, Script.pending 0 c.world.os, c'.buffers.read.toList])) =
          .ok (.events [hangup], [.connected 0 ⟨.v4 1 2 3 4, 1, 0⟩, .disconnected 30000], 4,
            [[], [1, 2, 3, 4, 5, 6], [1, 2, 3, 4]]) := by
    obtain rfl := Except.ok.inj he
    obtain rfl := Except.ok.inj hb
    decide +kernel
  obtain ⟨_, e₁, b₁, h₁⟩ := cycle_isOk hS e b 0 none
  obtain ⟨_, e₂, b₂, h₂⟩ := cycle_isOk hS e₁ b₁ 0 none
  obtain ⟨_, e₃, b₃, h₃⟩ := cycle_isOk hS e₂ b₂ 0 none
  obtain ⟨c, hc⟩ := Cycle.beforeWait_isOk hS 0 ⟨e₃.connection, b₃, e₃.world, {}⟩
  simp only [h₁, h₂, h₃, hc, bind, Except.bind] at heval
  let waited := c.world.wait Script.system c.connection.settings.eventCapacity (waitTimeout c.connection 0 none)
  obtain ⟨c', hc'⟩ := dispatch_isOk hS 0 { c with world := waited.2 } hangup
  simp only [waited, hc', pure, Except.pure, Except.ok.injEq, Prod.mk.injEq, List.cons.injEq] at heval
  obtain ⟨hwaited, ⟨hphase, hphase', -⟩, hfree, hread, hpending, hread', -⟩ := heval
  have hwait : waited = (.events [hangup], waited.2) := Prod.ext hwaited rfl
  have hp : Reached Script.system (.idle e b) (.handling 0 { c with world := waited.2 } [hangup]) :=
    ((((Reached.start.steps (cycle_steps h₁)).steps (cycle_steps h₂)).steps (cycle_steps h₃)).step
      (.begin none hc)).step (.ready hwait)
  obtain ⟨_, hcounted⟩ := hp.counted (counted_of_create he hb)
  obtain ⟨_, hholds⟩ := hcounted.read
  exact ⟨e, b, { c with world := waited.2 }, c', he, hb, hp, hholds.wellFormed, hc', hphase, hread, hfree, hpending,
    hread', by rw [Connection.state, hphase']⟩

theorem hangup_takes_what_fits_of_six_bytes : ∃ c c' : Cycle Script,
    Script.system.Delivers 0 (Script.pending 0) ∧ c.connection.phase = .connected 0 ⟨.v4 1 2 3 4, 1, 0⟩ ∧
    c.buffers.read.WellFormed ∧ Script.pending 0 c.world.os = [1, 2, 3, 4, 5, 6] ∧
    dispatch Script.system 0 c hangup = .ok c' ∧ c'.connection.state = .disconnected ∧
    c'.buffers.read.toList = [1, 2, 3, 4] := by
  obtain ⟨_, _, c, _, -, -, -, hwf, -, hphase, hread, hfree, hpending, -⟩ := farewell_ok
  have hS := Script.system_delivers 0
  have hreported : hangup.token = socketToken ∧ hangup.readable = true ∧ hangup.closed = true := ⟨rfl, rfl, rfl⟩
  obtain ⟨c', hc', hstate, -, htaken, -⟩ : ∃ c', dispatch Script.system 0 c hangup = .ok c' ∧ _ :=
    hangup_takes_what_fits hS hphase hwf hreported.1 hreported.2.1 hreported.2.2
  rw [hread, hfree, hpending] at htaken
  exact ⟨c, c', hS, hphase, hwf, hpending, hc', hstate, htaken⟩

theorem hangup_cuts_off_data : ¬∀ e b c c' left s peer event,
    create Script.system { host := "1.2.3.4", port := 1 } 0 { os := farewell } = .ok e → Buffers.create 4 = .ok b →
    Reached Script.system (.idle e b) (.handling 0 c (event :: left)) → c.connection.phase = .connected s peer →
    event.token = socketToken → event.readable = true → event.closed = true →
    dispatch Script.system 0 c event = .ok c' → c'.connection.state = .disconnected →
    c'.buffers.read.toList = c.buffers.read.toList ++ Script.pending s c.world.os := by
  intro hall
  obtain ⟨e, b, c, c', he, hb, hp, -, hc', hphase, hread, -, hpending, hread', hstate⟩ := farewell_ok
  have hkept := hall e b c c' [] 0 _ hangup he hb hp hphase rfl rfl rfl hc' hstate
  rw [hread', hread, hpending] at hkept
  exact absurd hkept (by decide)

end Engine

end IrcLink
