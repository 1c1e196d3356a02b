import IrcLink.Proofs.Engine.Lossless
import IrcLink.Proofs.Session.Pending

/-!
How often the loops over the spans of a ring go round. A ring is gone through in two passes, and so is a copy into it or
out of it; a transfer takes as many calls as it likes, but each of them moves something or is interrupted, except for the
last.
-/

namespace IrcLink

namespace Event

def isInterrupted : Event → Bool
  | .call c a => c.retries a
  | _ => false

def Reads (s : Socket) (e : Event) : Prop := ∃ room a, e = .call (.read s room) a

def Writes (s : Socket) (e : Event) : Prop := ∃ data a, e = .call (.write s data) a

def successes (bytes : Event → Bytes) (es : List Event) : Nat := es.countP fun e => !(bytes e).isEmpty

def interruptions (es : List Event) : Nat := es.countP isInterrupted

theorem successes_le (bytes : Event → Bytes) (es : List Event) : successes bytes es ≤ (es.flatMap bytes).length := by
  induction es with
  | nil => exact Nat.le_refl _
  | cons e es ih =>
    rw [successes, List.countP_cons, ← successes, List.flatMap_cons, List.length_append]
    cases bytes e with
    | nil => simpa using ih
    | cons b data =>
      simp only [List.isEmpty_cons, Bool.not_false, if_true, List.length_cons]
      omega

end Event

namespace Transfer

variable {ω : Type} {S : System ω} {s : Socket} {ring ring' : Ring} {w w' w'' : World ω} {t : Transferred ω} {n : Nat}

/-- The loop goes on for so many turns, and the next one stops it. After an interruption the ring is what it was, and so is
the number of bytes that were moved. -/
inductive Turns (once : Ring → World ω → Except Fault (Try ω)) : Nat → Ring → World ω → Transferred ω → Prop
  | stopped {ring : Ring} {w w' : World ω} {stop : Stop} (h : once ring w = .ok (.passed (.stopped stop w'))) :
      Turns once 0 ring w ⟨stop, 0, ring, w'⟩
  | interrupted {n : Nat} {ring : Ring} {w w' : World ω} {last : Transferred ω} (h : once ring w = .ok (.interrupted w'))
      (hl : Turns once n ring w' last) : Turns once (n + 1) ring w last
  | moved {n k : Nat} {ring ring' : Ring} {w w' : World ω} {last : Transferred ω}
      (h : once ring w = .ok (.passed (.moved k ring' w'))) (hl : Turns once n ring' w' last) :
      Turns once (n + 1) ring w { last with moved := k + last.moved }

theorem receive_of_interrupted (h : receiveOnce S s ring w = .ok (.interrupted w')) :
    receive S s ring w = receive S s ring w' := by
  have hpass : receivePass S s ring w = receivePass S s ring w' := by rw [receivePass, h]
  rw [receive, hpass, ← receive]

theorem transmit_of_interrupted (h : transmitOnce S s ring w = .ok (.interrupted w')) :
    transmit S s ring w = transmit S s ring w' := by
  have hpass : transmitPass S s ring w = transmitPass S s ring w' := by rw [transmitPass, h]
  rw [transmit, hpass, ← transmit]

theorem Retried.turns {once : Ring → World ω → Except Fault (Try ω)} {p : Pass ω} (h : Retried (once ring) p w)
    (hp : ∀ w', once ring w' = .ok (.passed p) → ∃ n, Turns once n ring w' t) : ∃ n, Turns once n ring w t := by
  induction h with
  | passed h => exact hp _ h
  | interrupted h _ ih =>
    obtain ⟨n, hn⟩ := ih
    exact ⟨n + 1, .interrupted h hn⟩

theorem Passes.turns {pass : Ring → World ω → Except Fault (Pass ω)} {once : Ring → World ω → Except Fault (Try ω)}
    (hpass : ∀ ring w p, pass ring w = .ok p → Retried (once ring) p w) (h : Passes pass ring w t) :
    ∃ n, Turns once n ring w t := by
  induction h with
  | stopped h => exact (hpass _ _ _ h).turns fun _ hone => ⟨0, .stopped hone⟩
  | moved h _ ih =>
    obtain ⟨n, hn⟩ := ih
    exact (hpass _ _ _ h).turns fun _ hone => ⟨n + 1, .moved hone hn⟩

theorem receive_eq_ok_iff : receive S s ring w = .ok t ↔ ∃ n, Turns (receiveOnce S s) n ring w t := by
  constructor
  · exact fun h => (receive_passes h).turns fun _ _ _ => receivePass_retried S s
  · rintro ⟨n, hn⟩
    induction hn with
    | stopped h => exact receive_of_stopped (by rw [receivePass, h])
    | interrupted h _ ih => rw [receive_of_interrupted h, ih]
    | moved h _ ih =>
      rw [receive_of_moved (by rw [receivePass, h]), ih]
      rfl

theorem transmit_eq_ok_iff : transmit S s ring w = .ok t ↔ ∃ n, Turns (transmitOnce S s) n ring w t := by
  constructor
  · exact fun h => (transmit_passes h).turns fun _ _ _ => transmitPass_retried S s
  · rintro ⟨n, hn⟩
    induction hn with
    | stopped h => exact transmit_of_stopped (by rw [transmitPass, h])
    | interrupted h _ ih => rw [transmit_of_interrupted h, ih]
    | moved h _ ih =>
      rw [transmit_of_moved (by rw [transmitPass, h]), ih]
      rfl

structure Calling (call : Event → Prop) (bytes : Event → Bytes) (room : Ring → Nat)
    (once : Ring → World ω → Except Fault (Try ω)) : Prop where
  interrupted : ∀ ring w w', once ring w = .ok (.interrupted w') →
    ∃ e, w.Does [e] w' ∧ call e ∧ bytes e = [] ∧ e.isInterrupted = true
  moved : ∀ ring w n ring' w', once ring w = .ok (.passed (.moved n ring' w')) →
    ∃ e, w.Does [e] w' ∧ call e ∧ bytes e ≠ [] ∧ e.isInterrupted = false ∧ room ring' + (bytes e).length = room ring
  stopped : ∀ ring w stop w', once ring w = .ok (.passed (.stopped stop w')) →
    w' = w ∨ ∃ e, w.Does [e] w' ∧ call e ∧ bytes e = [] ∧ e.isInterrupted = false

theorem receiveOnce_calling : Calling (Event.Reads s) Event.received Ring.free (receiveOnce S s) := by
  refine ⟨fun ring w w' h => ?_, fun ring w n ring' w' h => ?_, fun ring w stop w' h => ?_⟩
  all_goals
    obtain ⟨-, ht⟩ | ⟨-, a, w₁, hc, ⟨rfl, ht⟩ | ⟨p, ht, hr⟩⟩ := receiveOnce_ok h
    all_goals
      simp only [Try.passed.injEq, Try.interrupted.injEq, Pass.stopped.injEq, reduceCtorEq] at ht
  · subst ht
    have hd := World.read_does S hc
    exact ⟨_, hd, ⟨_, _, rfl⟩, rfl, rfl⟩
  · subst ht
    have hd := World.read_does S hc
    cases hr with
    | @moved data hne hle =>
      have hfree := Ring.reserve_free (Ring.reserve_eq_ok (Ring.overwriteSpan_writeSpanLength ring data ▸ hle))
      rw [Ring.overwriteSpan_free] at hfree
      exact ⟨_, hd, ⟨_, _, rfl⟩, hne, rfl, hfree⟩
  · exact .inl ht.2
  · subst ht
    have hd := World.read_does S hc
    right
    cases hr
    all_goals exact ⟨_, hd, ⟨_, _, rfl⟩, rfl, rfl⟩

theorem transmitOnce_calling : Calling (Event.Writes s) Event.sent Ring.len (transmitOnce S s) := by
  refine ⟨fun ring w w' h => ?_, fun ring w n ring' w' h => ?_, fun ring w stop w' h => ?_⟩
  all_goals
    obtain ⟨-, ht⟩ | ⟨-, a, w₁, hc, ⟨rfl, ht⟩ | ⟨p, ht, hr⟩⟩ := transmitOnce_ok h
    all_goals
      simp only [Try.passed.injEq, Try.interrupted.injEq, Pass.stopped.injEq, reduceCtorEq] at ht
  · subst ht
    have hd := World.write_does S hc
    exact ⟨_, hd, ⟨_, _, rfl⟩, rfl, rfl⟩
  · subst ht
    have hd := World.write_does S hc
    cases hr with
    | moved hne hle =>
      have hlen := Ring.consume_len_add (Ring.consume_eq_ok hle)
      have hsent : ((Event.call (.write s ring.readSpan) (.accepted n)).sent).length = n := by
        rw [Event.sent, List.length_take, Ring.readSpan_length]
        exact Nat.min_eq_left hle
      refine ⟨_, hd, ⟨_, _, rfl⟩, ?_, rfl, by rwa [hsent]⟩
      rw [← List.length_pos_iff, hsent]
      exact Nat.pos_of_ne_zero hne
  · exact .inl ht.2
  · subst ht
    have hd := World.write_does S hc
    right
    cases hr
    all_goals exact ⟨_, hd, ⟨_, _, rfl⟩, by simp [Event.sent], rfl⟩

/-- Between two worlds there was nothing but calls of one kind: those that moved something, no more in all than there was
room for, or were interrupted and tried again, and at most one more, which did neither. -/
structure Lasts (call : Event → Prop) (bytes : Event → Bytes) (room : Nat) (w : World ω) (tried last : List Event)
    (w' : World ω) : Prop where
  does : w.Does (tried ++ last) w'
  calls : ∀ e ∈ tried ++ last, call e
  going : ∀ e ∈ tried, bytes e ≠ [] ↔ e.isInterrupted = false
  ending : ∀ e ∈ last, bytes e = [] ∧ e.isInterrupted = false
  once : last.length ≤ 1
  within : (tried.flatMap bytes).length ≤ room

namespace Lasts

variable {call : Event → Prop} {bytes : Event → Bytes} {room room' : Nat} {tried last : List Event} {e : Event}

theorem none (room : Nat) (w : World ω) : Lasts call bytes room w [] [] w :=
  ⟨.refl w, nofun, nofun, nofun, Nat.zero_le _, Nat.zero_le _⟩

theorem final (hd : w.Does [e] w') (hc : call e) (he : bytes e = []) (hi : e.isInterrupted = false) :
    Lasts call bytes room w [] [e] w' where
  does := hd
  calls := List.forall_mem_singleton.mpr hc
  going := nofun
  ending := List.forall_mem_singleton.mpr ⟨he, hi⟩
  once := Nat.le_refl _
  within := Nat.zero_le _

theorem cons (hd : w.Does [e] w') (hc : call e) (he : bytes e ≠ [] ↔ e.isInterrupted = false)
    (hr : room' + (bytes e).length = room) (h : Lasts call bytes room' w' tried last w'') :
    Lasts call bytes room w (e :: tried) last w'' where
  does := hd.trans h.does
  calls := List.forall_mem_cons.mpr ⟨hc, h.calls⟩
  going := List.forall_mem_cons.mpr ⟨he, h.going⟩
  ending := h.ending
  once := h.once
  within := by
    have := h.within
    rw [List.flatMap_cons, List.length_append]
    omega

theorem successes_le (h : Lasts call bytes room w tried last w') : Event.successes bytes tried ≤ room :=
  Nat.le_trans (Event.successes_le bytes tried) h.within

theorem length_eq (h : Lasts call bytes room w tried last w') :
    tried.length = Event.successes bytes tried + Event.interruptions tried := by
  rw [List.length_eq_countP_add_countP fun e => !(bytes e).isEmpty]
  refine congrArg _ (List.countP_congr fun e he => ?_)
  have := h.going e he
  cases hi : e.isInterrupted <;> simp_all

end Lasts

theorem Turns.lasts {call : Event → Prop} {bytes : Event → Bytes} {room : Ring → Nat}
    {once : Ring → World ω → Except Fault (Try ω)} (hc : Calling call bytes room once) (h : Turns once n ring w t) :
    ∃ tried last, tried.length = n ∧ Lasts call bytes (room ring) w tried last t.world := by
  induction h with
  | stopped h =>
    obtain rfl | ⟨e, hd, he, hnone, hi⟩ := hc.stopped _ _ _ _ h
    · exact ⟨[], [], rfl, .none _ _⟩
    · exact ⟨[], [e], rfl, .final hd he hnone hi⟩
  | interrupted h _ ih =>
    obtain ⟨e, hd, he, hnone, hi⟩ := hc.interrupted _ _ _ h
    obtain ⟨tried, last, rfl, hl⟩ := ih
    exact ⟨e :: tried, last, rfl, hl.cons hd he (by simp [hnone, hi]) (by simp [hnone])⟩
  | moved h _ ih =>
    obtain ⟨e, hd, he, hsome, hi, hroom⟩ := hc.moved _ _ _ _ _ h
    obtain ⟨tried, last, rfl, hl⟩ := ih
    exact ⟨e :: tried, last, rfl, hl.cons hd he (by simp [hsome, hi]) hroom⟩

end Transfer

open Transfer

theorem Engine.span_loops_are_brief {ω σ υ : Type} {S : System ω} (hS : S.Bounded) {C : Nat} {start : Ring}
    (hc : Ring.create C = .ok start) (ops : List Ring.Op) :
    let r := start.run ops
    -- a copy, and a session that goes through what was received
    (∀ src : Bytes,
      Brief Ring.PutPass (·.2 = []) (·.2.length) (r, src.take (min src.length r.free)) ((r.put src).1, [])) ∧
    (∀ n : Nat, Brief Ring.GetPass (·.2.1 = 0) (·.2.1) (r, min n r.len, []) ((r.get n).2, 0, (r.get n).1)) ∧
    (∀ s : Session σ υ, ∃ t read ms, s.processAll r = .ok (t, read, ms) ∧
      Brief Session.ProcessPass (·.2.1.isEmpty = true) (·.2.1.len) (s, r, []) (t, read, ms)) ∧
    -- a transfer from a socket, and one to it
    (∀ (s : Socket) (w : World ω), ∃ n t tried last, receive S s r w = .ok t ∧ Turns (receiveOnce S s) n r w t ∧
      tried.length = n ∧ Lasts (Event.Reads s) Event.received r.free w tried last t.world ∧
      Event.successes Event.received tried ≤ r.free ∧
      (tried ++ last).length = Event.successes Event.received tried + Event.interruptions tried + last.length) ∧
    ∀ (s : Socket) (w : World ω), ∃ n t tried last, transmit S s r w = .ok t ∧ Turns (transmitOnce S s) n r w t ∧
      tried.length = n ∧ Lasts (Event.Writes s) Event.sent r.len w tried last t.world ∧
      Event.successes Event.sent tried ≤ r.len ∧
      (tried ++ last).length = Event.successes Event.sent tried + Event.interruptions tried + last.length := by
  intro r
  have h : r.WellFormed := by
    obtain ⟨q, hq⟩ := Ring.run_holds (Ring.create_holds hc) ops
    exact hq.wellFormed
  refine ⟨Ring.put_brief h, Ring.get_brief h, Session.processAll_brief h, fun s w => ?_, fun s w => ?_⟩
  · obtain ⟨t, ht⟩ := receive_isOk hS
    obtain ⟨n, hn⟩ := receive_eq_ok_iff.mp ht
    obtain ⟨tried, last, hlength, hl⟩ := hn.lasts receiveOnce_calling
    exact ⟨n, t, tried, last, ht, hn, hlength, hl, hl.successes_le, by rw [List.length_append, hl.length_eq]⟩
  · obtain ⟨t, ht⟩ := transmit_isOk hS
    obtain ⟨n, hn⟩ := transmit_eq_ok_iff.mp ht
    obtain ⟨tried, last, hlength, hl⟩ := hn.lasts transmitOnce_calling
    exact ⟨n, t, tried, last, ht, hn, hlength, hl, hl.successes_le, by rw [List.length_append, hl.length_eq]⟩

def aroundTheEnd : List Ring.Op := [.put [1, 2, 3], .get 2, .put [4, 5]]

def interruptedOnce : Script where
  sockets := [{ reads := [.fails "EINTR", .data [6, 7]] }]

theorem Engine.span_loops_are_brief_around_the_end :
    Script.system.Bounded ∧ ∃ start, Ring.create 4 = .ok start ∧
      (∀ n c, Rounds Ring.GetPass (·.2.1 = 0) n (start.run aroundTheEnd, 3, []) c → n ≤ 2) ∧
      ∃ t tried last, receive Script.system 0 (start.run aroundTheEnd) { os := interruptedOnce } = .ok t ∧
        Turns (receiveOnce Script.system 0) 2 (start.run aroundTheEnd) { os := interruptedOnce } t ∧
        Lasts (Event.Reads 0) Event.received 1 { os := interruptedOnce } tried last t.world ∧
        Event.successes Event.received tried = 1 ∧ Event.interruptions tried = 1 ∧ last = [] := by
  obtain ⟨start, hc⟩ : ∃ start, Ring.create 4 = .ok start := ⟨_, rfl⟩
  obtain ⟨-, hget, -, hreceive, -⟩ :=
    span_loops_are_brief (σ := Unit) (υ := Unit) Script.system_bounded hc aroundTheEnd
  obtain ⟨n, t, tried, last, ht, hturns, hn, hl, -, hsum⟩ := hreceive 0 { os := interruptedOnce }
  have heval : (start.run aroundTheEnd).len = 3 ∧ (start.run aroundTheEnd).free = 1 ∧
      (receive Script.system 0 (start.run aroundTheEnd) { os := interruptedOnce }).map
        (fun t => (Event.successes Event.received t.world.journal.own, Event.interruptions t.world.journal.own,
          t.world.journal.own.length)) = .ok (1, 1, 2) := by
    obtain rfl := Except.ok.inj hc
    decide +kernel
  rw [ht] at heval
  obtain ⟨hlen, hfree, heval⟩ := heval
  obtain ⟨hmoved, heval⟩ := Prod.mk.inj (Except.ok.inj heval)
  obtain ⟨hinterrupted, hcalls⟩ := Prod.mk.inj heval
  have hown : t.world.journal.own = tried ++ last := by
    obtain ⟨seg, hj, hseg⟩ := hl.does
    rw [hj]
    exact hseg
  have hnone : Event.successes Event.received last = 0 ∧ Event.interruptions last = 0 :=
    ⟨List.countP_eq_zero.mpr fun e he => by simp [(hl.ending e he).1],
      List.countP_eq_zero.mpr fun e he => by simp [(hl.ending e he).2]⟩
  rw [hown, Event.successes, List.countP_append, ← Event.successes, ← Event.successes, hnone.1, Nat.add_zero] at hmoved
  rw [hown, Event.interruptions, List.countP_append, ← Event.interruptions, ← Event.interruptions, hnone.2,
    Nat.add_zero] at hinterrupted
  rw [hown, hsum, hmoved, hinterrupted] at hcalls
  obtain rfl : last = [] := List.eq_nil_of_length_eq_zero (by omega)
  obtain rfl : n = 2 := by
    rw [← hn, hl.length_eq]
    omega
  have hthree := hget 3
  rw [hlen] at hthree
  rw [hfree] at hl
  exact ⟨Script.system_bounded, start, hc, fun n c => hthree.twice, t, tried, [], ht, hturns, hl, hmoved, hinterrupted, rfl⟩

end IrcLink
