import IrcLink.Proofs.Journal.Traffic
import IrcLink.Proofs.Ring.Span
import IrcLink.Transfer

/-!
What a transfer moves: the bytes that a stream gave are added to the ring, in order, and the bytes that it took are
those at the front. A transfer that stops, for whatever reason, has lost none. If no read and no write reports more
than it was offered, every transfer comes to a stop.

A pass is any number of interrupted calls and then one that is not. All of them ask for the same, since an interruption
leaves the ring as it was.
-/

namespace IrcLink

/-- A read gives no more than there is room for, and a write takes no more than it is offered. -/
structure System.Bounded {ω : Type} (S : System ω) : Prop where
  read : ∀ s room os data, (S.answer (.read s room) os).1 = .bytes data → data.length ≤ room
  write : ∀ s data os n, (S.answer (.write s data) os).1 = .accepted n → n ≤ data.length

namespace Event

/-- What a call leaves that was interrupted so many times before it got this answer. -/
def tries (c : Call) (interrupted : c.Answer) (n : Nat) (a : c.Answer) : List Event :=
  List.replicate n (.call c interrupted) ++ [.call c a]

variable {c : Call} {i a : c.Answer} {n : Nat}

theorem mem_tries : Event.call c a ∈ tries c i n a := List.mem_append_right _ (List.mem_singleton_self _)

theorem forall_tries {P : Event → Prop} (hi : P (.call c i)) (ha : P (.call c a)) : ∀ e ∈ tries c i n a, P e := by
  intro e he
  obtain he | he := List.mem_append.mp he
  · rwa [List.eq_of_mem_replicate he]
  · rwa [List.mem_singleton.mp he]

theorem flatMap_tries {α : Type} {f : Event → List α} (hi : f (.call c i) = []) :
    (tries c i n a).flatMap f = f (.call c a) := by
  simp [tries, List.flatMap_replicate, hi]

theorem filterMap_tries {α : Type} {f : Event → Option α} (hi : f (.call c i) = none) :
    (tries c i n a).filterMap f = (f (.call c a)).toList := by
  rw [tries, List.filterMap_append, List.filterMap_eq_nil_iff.mpr fun e he => by rwa [List.eq_of_mem_replicate he]]
  cases h : f (.call c a) <;> simp [h]

end Event

def Pass.world {ω : Type} : Pass ω → World ω
  | .moved _ _ w => w
  | .stopped _ w => w

def Try.world {ω : Type} : Try ω → World ω
  | .interrupted w => w
  | .passed p => p.world

namespace Transfer

variable {ω : Type} {S : System ω} {s : Socket} {ring ring' : Ring} {w w' : World ω}

inductive Passes (pass : Ring → World ω → Except Fault (Pass ω)) : Ring → World ω → Transferred ω → Prop
  | stopped {ring : Ring} {w w' : World ω} {stop : Stop} (h : pass ring w = .ok (.stopped stop w')) :
      Passes pass ring w ⟨stop, 0, ring, w'⟩
  | moved {ring ring' : Ring} {w w' : World ω} {n : Nat} {last : Transferred ω}
      (h : pass ring w = .ok (.moved n ring' w')) (hl : Passes pass ring' w' last) :
      Passes pass ring w { last with moved := n + last.moved }

theorem Retried.does {once : World ω → Except Fault (Try ω)} {p : Pass ω} {e : Event}
    (hi : ∀ w w', once w = .ok (.interrupted w') → w.Does [e] w') (h : Retried once p w) :
    ∃ n w₁, w.Does (List.replicate n e) w₁ ∧ once w₁ = .ok (.passed p) := by
  induction h with
  | passed h => exact ⟨0, _, .refl _, h⟩
  | interrupted h _ ih =>
    obtain ⟨n, w₁, hd, hp⟩ := ih
    exact ⟨n + 1, w₁, (hi _ _ h).trans hd, hp⟩

inductive Reads (ring : Ring) (w : World ω) : Call.Received → Pass ω → Prop
  | ended : Reads ring w (.bytes []) (.stopped .lost w)
  | wouldBlock : Reads ring w .wouldBlock (.stopped .wouldBlock w)
  | failed (code : ErrorCode) : Reads ring w (.failed code) (.stopped .lost w)
  | moved {data : Bytes} (hne : data ≠ []) (hle : data.length ≤ ring.writeSpanLength) :
      Reads ring w (.bytes data) (.moved data.length ((ring.overwriteSpan data).advanceTail data.length) w)

theorem Reads.world_eq {r : Call.Received} {p : Pass ω} (h : Reads ring w r p) : p.world = w := by cases h <;> rfl

theorem Reads.sights_eq {r : Call.Received} {p : Pass ω} (h : Reads ring w r p) (s : Socket) (room n : Nat) :
    (Event.tries (.read s room) .interrupted n r).filterMap Event.sight? = [.received r] := by
  rw [Event.filterMap_tries rfl]
  cases h <;> rfl

theorem receiveOnce_ok {t : Try ω} (h : receiveOnce S s ring w = .ok t) :
    ring.writeSpanLength = 0 ∧ t = .passed (.stopped .ring w) ∨
      ring.writeSpanLength ≠ 0 ∧ ∃ a w', w.call S (.read s ring.writeSpanLength) = (a, w') ∧
        (a = .interrupted ∧ t = .interrupted w' ∨ ∃ p, t = .passed p ∧ Reads ring w' a p) := by
  simp only [receiveOnce] at h
  split at h
  · rename_i hz
    exact .inl ⟨hz, (Except.ok.inj h).symm⟩
  · rename_i hz
    split at h
    · rename_i w' hc
      exact .inr ⟨hz, _, w', hc, .inr ⟨_, (Except.ok.inj h).symm, .ended⟩⟩
    · rename_i data w' hne hc
      refine .inr ⟨hz, _, w', hc, .inr ?_⟩
      obtain ⟨ring', hv, rfl⟩ := Fault.map_eq_ok.mp h
      by_cases hle : data.length ≤ ring.writeSpanLength
      · rw [Ring.reserve_eq_ok (by rwa [Ring.overwriteSpan_writeSpanLength])] at hv
        obtain rfl := Except.ok.inj hv
        exact ⟨_, rfl, .moved (fun hnil => hne hnil) hle⟩
      · rw [Ring.reserve_eq_error (by rwa [Ring.overwriteSpan_writeSpanLength])] at hv
        simp at hv
    · rename_i w' hc
      exact .inr ⟨hz, _, w', hc, .inl ⟨rfl, (Except.ok.inj h).symm⟩⟩
    · rename_i w' hc
      exact .inr ⟨hz, _, w', hc, .inr ⟨_, (Except.ok.inj h).symm, .wouldBlock⟩⟩
    · rename_i code w' hc
      exact .inr ⟨hz, _, w', hc, .inr ⟨_, (Except.ok.inj h).symm, .failed code⟩⟩

theorem receivePass_full (h : ring.writeSpanLength = 0) : receivePass S s ring w = .ok (.stopped .ring w) := by
  have hone : receiveOnce S s ring w = .ok (.passed (.stopped .ring w)) := if_pos h
  rw [receivePass, hone]

theorem receivePass_ok {p : Pass ω} (h : receivePass S s ring w = .ok p) :
    ring.writeSpanLength = 0 ∧ p = .stopped .ring w ∨
      ring.writeSpanLength ≠ 0 ∧ ∃ n a w',
        w.Does (Event.tries (.read s ring.writeSpanLength) .interrupted n a) w' ∧ Reads ring w' a p := by
  by_cases hz : ring.writeSpanLength = 0
  · rw [receivePass_full hz] at h
    exact .inl ⟨hz, (Except.ok.inj h).symm⟩
  · obtain ⟨n, w₁, hd, hp⟩ := (receivePass_retried S s h).does fun _ _ hi =>
      World.read_does S (receiveOnce_interrupted S s hi)
    obtain ⟨hz', -⟩ | ⟨-, a, w', hc, ⟨-, hp⟩ | ⟨p, hp, hr⟩⟩ := receiveOnce_ok hp
    · exact absurd hz' hz
    · simp at hp
    · obtain rfl := Try.passed.inj hp
      exact .inr ⟨hz, n, a, w', hd.trans (World.read_does S hc), hr⟩

theorem receivePass_moved {n : Nat} (h : receivePass S s ring w = .ok (.moved n ring' w')) :
    ∃ k data, w.Does (Event.tries (.read s ring.writeSpanLength) .interrupted k (.bytes data)) w' ∧ n = data.length ∧
      data.length ≤ ring.writeSpanLength ∧ ring' = (ring.overwriteSpan data).advanceTail data.length := by
  obtain ⟨-, hp⟩ | ⟨-, k, a, w₁, hd, hr⟩ := receivePass_ok h
  · simp at hp
  · cases hr with
    | moved _ hle => exact ⟨k, _, hd, rfl, hle, rfl⟩

theorem receivePass_stopped {stop : Stop} (h : receivePass S s ring w = .ok (.stopped stop w')) :
    w' = w ∨ ∃ k a, w.Does (Event.tries (.read s ring.writeSpanLength) .interrupted k a) w' ∧
      (Event.call (.read s ring.writeSpanLength) a).received = [] := by
  obtain ⟨-, hp⟩ | ⟨-, k, a, w₁, hd, hr⟩ := receivePass_ok h
  · exact .inl (Pass.stopped.inj hp).2
  · right
    cases hr
    all_goals exact ⟨k, _, hd, rfl⟩

theorem receiveOnce_isOk (hS : S.Bounded) (s : Socket) (ring : Ring) (w : World ω) : ∃ t, receiveOnce S s ring w = .ok t := by
  simp only [receiveOnce]
  split
  · exact ⟨_, rfl⟩
  · split
    · exact ⟨_, rfl⟩
    · rename_i data w' _ hr
      have hle := hS.read _ _ _ data (congrArg Prod.fst hr)
      rw [Ring.reserve_eq_ok (by rwa [Ring.overwriteSpan_writeSpanLength])]
      exact ⟨_, rfl⟩
    · exact ⟨_, rfl⟩
    · exact ⟨_, rfl⟩
    · exact ⟨_, rfl⟩

theorem receivePass_isOk (hS : S.Bounded) (s : Socket) (ring : Ring) (w : World ω) : ∃ p, receivePass S s ring w = .ok p := by
  fun_induction receivePass S s ring w with
  | case1 w f hf =>
    obtain ⟨t, ht⟩ := receiveOnce_isOk hS s ring w
    rw [ht] at hf
    simp at hf
  | case2 w p => exact ⟨p, rfl⟩
  | case3 _ _ _ ih => exact ih

theorem receive_of_stopped {stop : Stop} (h : receivePass S s ring w = .ok (.stopped stop w')) :
    receive S s ring w = .ok ⟨stop, 0, ring, w'⟩ := by rw [receive, h]

theorem receive_of_moved {n : Nat} (h : receivePass S s ring w = .ok (.moved n ring' w')) :
    receive S s ring w = (receive S s ring' w').map fun t => { t with moved := n + t.moved } := by rw [receive, h]

theorem receive_isOk (hS : S.Bounded) : ∃ t, receive S s ring w = .ok t := by
  induction ring, w using receive.induct S s with
  | case1 ring w f hf =>
    obtain ⟨p, hp⟩ := receivePass_isOk hS s ring w
    rw [hp] at hf
    simp at hf
  | case2 ring w stop w' hp => exact ⟨_, receive_of_stopped hp⟩
  | case3 ring w n ring' w' hp ih =>
    obtain ⟨t, ht⟩ := ih
    rw [receive_of_moved hp, ht]
    exact ⟨_, rfl⟩

theorem receive_passes {t : Transferred ω} (h : receive S s ring w = .ok t) : Passes (receivePass S s) ring w t := by
  induction ring, w using receive.induct S s generalizing t with
  | case1 ring w f hf => rw [receive, hf] at h; simp at h
  | case2 ring w stop w' hp =>
    obtain rfl := by simpa [receive_of_stopped hp] using h
    exact .stopped hp
  | case3 ring w n ring' w' hp ih =>
    rw [receive_of_moved hp] at h
    obtain ⟨last, hl, rfl⟩ := Fault.map_eq_ok.mp h
    exact .moved hp (ih hl)

theorem receive_moves {t : Transferred ω} (h : receive S s ring w = .ok t) :
    ∃ es, w.Does es t.world ∧ (∀ e ∈ es, e.stream? = some s ∧ e.sent = []) ∧
      t.moved = (es.flatMap Event.received).length ∧
      ∀ C q, ring.Holds C q → t.ring.Holds C (q ++ es.flatMap Event.received) := by
  have hp := receive_passes h
  clear h
  induction hp with
  | @stopped ring w w' stop hp =>
    obtain rfl | ⟨k, a, hd, hr⟩ := receivePass_stopped hp
    · exact ⟨[], .refl w', nofun, rfl, fun C q hq => by simpa using hq⟩
    · have hnone : (Event.tries (.read s ring.writeSpanLength) .interrupted k a).flatMap Event.received = [] :=
        (Event.flatMap_tries rfl).trans hr
      exact ⟨_, hd, Event.forall_tries ⟨rfl, rfl⟩ ⟨rfl, rfl⟩, by simp [hnone], fun C q hq => by simpa [hnone] using hq⟩
  | @moved ring ring' w w' n last hp _ ih =>
    obtain ⟨k, data, hd, rfl, hle, rfl⟩ := receivePass_moved hp
    obtain ⟨es, hes, hs, hm, hq⟩ := ih
    have hdata : (Event.tries (.read s ring.writeSpanLength) .interrupted k (.bytes data)).flatMap Event.received = data :=
      Event.flatMap_tries rfl
    refine ⟨_, hd.trans hes, ?_, ?_, ?_⟩
    · exact List.forall_mem_append.mpr ⟨Event.forall_tries ⟨rfl, rfl⟩ ⟨rfl, rfl⟩, hs⟩
    · rw [List.flatMap_append, hdata, List.length_append, ← hm]
    · intro C q h
      rw [List.flatMap_append, hdata, ← List.append_assoc]
      exact hq C _ (h.fill hle)

theorem receive_stops {t : Transferred ω} (h : receive S s ring w = .ok t) :
    ∃ es, w.Does es t.world ∧ (t.stop = .ring → t.ring.writeSpanLength = 0) ∧
      (t.stop = .wouldBlock → ∃ room, Event.call (.read s room) .wouldBlock ∈ es) ∧
      (t.stop = .lost → ∃ e ∈ es, e.refuses = true) := by
  have hp := receive_passes h
  clear h
  induction hp with
  | @stopped ring w w' stop hp =>
    obtain ⟨hz, hp⟩ | ⟨-, k, a, w₁, hd, hr⟩ := receivePass_ok hp
    · obtain ⟨rfl, rfl⟩ := Pass.stopped.inj hp
      exact ⟨[], .refl w', fun _ => hz, nofun, nofun⟩
    · cases hr with
      | ended => exact ⟨_, hd, nofun, nofun, fun _ => ⟨_, Event.mem_tries, rfl⟩⟩
      | wouldBlock => exact ⟨_, hd, nofun, fun _ => ⟨_, Event.mem_tries⟩, nofun⟩
      | failed code => exact ⟨_, hd, nofun, nofun, fun _ => ⟨_, Event.mem_tries, rfl⟩⟩
  | @moved ring ring' w w' n last hp _ ih =>
    obtain ⟨k, data, hd, -⟩ := receivePass_moved hp
    obtain ⟨es, hes, hring, hblock, hlost⟩ := ih
    refine ⟨_, hd.trans hes, hring, ?_, ?_⟩
    · intro hstop
      obtain ⟨room, hmem⟩ := hblock hstop
      exact ⟨room, List.mem_append_right _ hmem⟩
    · intro hstop
      obtain ⟨e, hmem, hrefuses⟩ := hlost hstop
      exact ⟨e, List.mem_append_right _ hmem, hrefuses⟩

inductive Writes (ring : Ring) (w : World ω) : Call.Sent → Pass ω → Prop
  | ended : Writes ring w (.accepted 0) (.stopped .lost w)
  | wouldBlock : Writes ring w .wouldBlock (.stopped .wouldBlock w)
  | failed (code : ErrorCode) : Writes ring w (.failed code) (.stopped .lost w)
  | moved {n : Nat} (hne : n ≠ 0) (hle : n ≤ ring.readSpanLength) :
      Writes ring w (.accepted n) (.moved n (ring.advanceHead n) w)

theorem Writes.world_eq {r : Call.Sent} {p : Pass ω} (h : Writes ring w r p) : p.world = w := by cases h <;> rfl

theorem Writes.sights_eq {r : Call.Sent} {p : Pass ω} (h : Writes ring w r p) (s : Socket) (data : Bytes) (n : Nat) :
    (Event.tries (.write s data) .interrupted n r).filterMap Event.sight? = [.accepted r] := by
  rw [Event.filterMap_tries rfl]
  cases h <;> rfl

theorem transmitOnce_ok {t : Try ω} (h : transmitOnce S s ring w = .ok t) :
    ring.isEmpty = true ∧ t = .passed (.stopped .ring w) ∨
      ring.isEmpty = false ∧ ∃ a w', w.call S (.write s ring.readSpan) = (a, w') ∧
        (a = .interrupted ∧ t = .interrupted w' ∨ ∃ p, t = .passed p ∧ Writes ring w' a p) := by
  simp only [transmitOnce] at h
  split at h
  · rename_i hz
    exact .inl ⟨hz, (Except.ok.inj h).symm⟩
  · rename_i hz
    have hz := Bool.eq_false_iff.mpr hz
    split at h
    · rename_i w' hc
      exact .inr ⟨hz, _, w', hc, .inr ⟨_, (Except.ok.inj h).symm, .ended⟩⟩
    · rename_i n w' hne hc
      refine .inr ⟨hz, _, w', hc, .inr ?_⟩
      obtain ⟨ring', hv, rfl⟩ := Fault.map_eq_ok.mp h
      by_cases hle : n ≤ ring.readSpanLength
      · rw [Ring.consume_eq_ok hle] at hv
        obtain rfl := Except.ok.inj hv
        exact ⟨_, rfl, .moved hne hle⟩
      · rw [Ring.consume_eq_error hle] at hv
        simp at hv
    · rename_i w' hc
      exact .inr ⟨hz, _, w', hc, .inl ⟨rfl, (Except.ok.inj h).symm⟩⟩
    · rename_i w' hc
      exact .inr ⟨hz, _, w', hc, .inr ⟨_, (Except.ok.inj h).symm, .wouldBlock⟩⟩
    · rename_i code w' hc
      exact .inr ⟨hz, _, w', hc, .inr ⟨_, (Except.ok.inj h).symm, .failed code⟩⟩

theorem transmitPass_empty (h : ring.isEmpty = true) : transmitPass S s ring w = .ok (.stopped .ring w) := by
  have hone : transmitOnce S s ring w = .ok (.passed (.stopped .ring w)) := if_pos h
  rw [transmitPass, hone]

theorem transmitPass_ok {p : Pass ω} (h : transmitPass S s ring w = .ok p) :
    ring.isEmpty = true ∧ p = .stopped .ring w ∨
      ring.isEmpty = false ∧ ∃ n a w',
        w.Does (Event.tries (.write s ring.readSpan) .interrupted n a) w' ∧ Writes ring w' a p := by
  cases hz : ring.isEmpty with
  | true =>
    rw [transmitPass_empty hz] at h
    exact .inl ⟨rfl, (Except.ok.inj h).symm⟩
  | false =>
    obtain ⟨n, w₁, hd, hp⟩ := (transmitPass_retried S s h).does fun _ _ hi =>
      World.write_does S (transmitOnce_interrupted S s hi)
    obtain ⟨hz', -⟩ | ⟨-, a, w', hc, ⟨-, hp⟩ | ⟨p, hp, hr⟩⟩ := transmitOnce_ok hp
    · rw [hz] at hz'
      simp at hz'
    · simp at hp
    · obtain rfl := Try.passed.inj hp
      exact .inr ⟨rfl, n, a, w', hd.trans (World.write_does S hc), hr⟩

theorem transmitPass_moved {n : Nat} (h : transmitPass S s ring w = .ok (.moved n ring' w')) :
    ∃ k, w.Does (Event.tries (.write s ring.readSpan) .interrupted k (.accepted n)) w' ∧ n ≤ ring.readSpanLength ∧
      ring' = ring.advanceHead n := by
  obtain ⟨-, hp⟩ | ⟨-, k, a, w₁, hd, hr⟩ := transmitPass_ok h
  · simp at hp
  · cases hr with
    | moved _ hle => exact ⟨k, hd, hle, rfl⟩

theorem transmitPass_stopped {stop : Stop} (h : transmitPass S s ring w = .ok (.stopped stop w')) :
    w' = w ∨ ∃ k a, w.Does (Event.tries (.write s ring.readSpan) .interrupted k a) w' ∧
      (Event.call (.write s ring.readSpan) a).sent = [] := by
  obtain ⟨-, hp⟩ | ⟨-, k, a, w₁, hd, hr⟩ := transmitPass_ok h
  · exact .inl (Pass.stopped.inj hp).2
  · right
    cases hr
    all_goals exact ⟨k, _, hd, by simp [Event.sent]⟩

theorem transmit_of_stopped {stop : Stop} (h : transmitPass S s ring w = .ok (.stopped stop w')) :
    transmit S s ring w = .ok ⟨stop, 0, ring, w'⟩ := by rw [transmit, h]

theorem transmit_of_moved {n : Nat} (h : transmitPass S s ring w = .ok (.moved n ring' w')) :
    transmit S s ring w = (transmit S s ring' w').map fun t => { t with moved := n + t.moved } := by rw [transmit, h]

theorem transmitOnce_isOk (hS : S.Bounded) (s : Socket) (ring : Ring) (w : World ω) : ∃ t, transmitOnce S s ring w = .ok t := by
  simp only [transmitOnce]
  split
  · exact ⟨_, rfl⟩
  · split
    · exact ⟨_, rfl⟩
    · rename_i n w' _ hr
      have hle := hS.write _ _ _ n (congrArg Prod.fst hr)
      rw [Ring.readSpan_length] at hle
      rw [Ring.consume_eq_ok hle]
      exact ⟨_, rfl⟩
    · exact ⟨_, rfl⟩
    · exact ⟨_, rfl⟩
    · exact ⟨_, rfl⟩

theorem transmitPass_isOk (hS : S.Bounded) (s : Socket) (ring : Ring) (w : World ω) : ∃ p, transmitPass S s ring w = .ok p := by
  fun_induction transmitPass S s ring w with
  | case1 w f hf =>
    obtain ⟨t, ht⟩ := transmitOnce_isOk hS s ring w
    rw [ht] at hf
    simp at hf
  | case2 w p => exact ⟨p, rfl⟩
  | case3 _ _ _ ih => exact ih

theorem transmit_isOk (hS : S.Bounded) : ∃ t, transmit S s ring w = .ok t := by
  induction ring, w using transmit.induct S s with
  | case1 ring w f hf =>
    obtain ⟨p, hp⟩ := transmitPass_isOk hS s ring w
    rw [hp] at hf
    simp at hf
  | case2 ring w stop w' hp => exact ⟨_, transmit_of_stopped hp⟩
  | case3 ring w n ring' w' hp ih =>
    obtain ⟨t, ht⟩ := ih
    rw [transmit_of_moved hp, ht]
    exact ⟨_, rfl⟩

theorem transmit_passes {t : Transferred ω} (h : transmit S s ring w = .ok t) : Passes (transmitPass S s) ring w t := by
  induction ring, w using transmit.induct S s generalizing t with
  | case1 ring w f hf => rw [transmit, hf] at h; simp at h
  | case2 ring w stop w' hp =>
    obtain rfl := by simpa [transmit_of_stopped hp] using h
    exact .stopped hp
  | case3 ring w n ring' w' hp ih =>
    rw [transmit_of_moved hp] at h
    obtain ⟨last, hl, rfl⟩ := Fault.map_eq_ok.mp h
    exact .moved hp (ih hl)

theorem transmit_stops {t : Transferred ω} (h : transmit S s ring w = .ok t) :
    (t.stop = .ring → t.ring.isEmpty = true) ∧ (t.stop = .wouldBlock → t.ring.isEmpty = false) := by
  have hp := transmit_passes h
  clear h
  induction hp with
  | @stopped ring w w' stop hp =>
    obtain ⟨hz, hp⟩ | ⟨hne, k, a, w₁, -, hr⟩ := transmitPass_ok hp
    · obtain ⟨rfl, -⟩ := Pass.stopped.inj hp
      exact ⟨fun _ => hz, nofun⟩
    · cases hr with
      | ended => exact ⟨nofun, nofun⟩
      | wouldBlock => exact ⟨nofun, fun _ => hne⟩
      | failed code => exact ⟨nofun, nofun⟩
  | moved _ _ ih => exact ih

theorem transmit_refused {t : Transferred ω} (h : transmit S s ring w = .ok t) :
    ∃ es, w.Does es t.world ∧ (t.stop ≠ .ring → ∃ e ∈ es, e.refuses = true) := by
  have hp := transmit_passes h
  clear h
  induction hp with
  | @stopped ring w w' stop hp =>
    obtain ⟨-, hp⟩ | ⟨-, k, a, w₁, hd, hr⟩ := transmitPass_ok hp
    · obtain ⟨rfl, rfl⟩ := Pass.stopped.inj hp
      exact ⟨[], .refl w', fun hstop => absurd rfl hstop⟩
    · cases hr
      all_goals exact ⟨_, hd, fun _ => ⟨_, Event.mem_tries, rfl⟩⟩
  | @moved ring ring' w w' n last hp _ ih =>
    obtain ⟨k, hd, -⟩ := transmitPass_moved hp
    obtain ⟨es, hes, hrefused⟩ := ih
    refine ⟨_, hd.trans hes, fun hstop => ?_⟩
    obtain ⟨e, hmem, hrefuses⟩ := hrefused hstop
    exact ⟨e, List.mem_append_right _ hmem, hrefuses⟩

theorem transmit_moves {t : Transferred ω} (h : transmit S s ring w = .ok t) :
    ∃ es, w.Does es t.world ∧ (∀ e ∈ es, e.stream? = some s ∧ e.received = []) ∧
      t.moved = (es.flatMap Event.sent).length ∧
      ∀ C q, ring.Holds C q → ∃ q', q = es.flatMap Event.sent ++ q' ∧ t.ring.Holds C q' := by
  have hp := transmit_passes h
  clear h
  induction hp with
  | @stopped ring w w' stop hp =>
    obtain rfl | ⟨k, a, hd, hr⟩ := transmitPass_stopped hp
    · exact ⟨[], .refl w', nofun, rfl, fun C q hq => ⟨q, rfl, hq⟩⟩
    · have hnone : (Event.tries (.write s ring.readSpan) .interrupted k a).flatMap Event.sent = [] :=
        (Event.flatMap_tries rfl).trans hr
      exact ⟨_, hd, Event.forall_tries ⟨rfl, rfl⟩ ⟨rfl, rfl⟩, by simp [hnone], fun C q hq => ⟨q, by simp [hnone], hq⟩⟩
  | @moved ring ring' w w' n last hp _ ih =>
    obtain ⟨k, hd, hle, rfl⟩ := transmitPass_moved hp
    obtain ⟨es, hes, hs, hm, hq⟩ := ih
    have hsent : (Event.tries (.write s ring.readSpan) .interrupted k (.accepted n)).flatMap Event.sent =
        ring.readSpan.take n := Event.flatMap_tries rfl
    refine ⟨_, hd.trans hes, ?_, ?_, ?_⟩
    · exact List.forall_mem_append.mpr ⟨Event.forall_tries ⟨rfl, rfl⟩ ⟨rfl, rfl⟩, hs⟩
    · change n + last.moved = _
      rw [List.flatMap_append, hsent, List.length_append, List.length_take, Ring.readSpan_length, hm]
      omega
    · intro C q h
      obtain ⟨q', hq', hr'⟩ := hq C _ (h.advanceHead hle)
      refine ⟨q', ?_, hr'⟩
      have hspan : ring.readSpan.take n = q.take n := by
        rw [h.readSpan_eq, List.take_take, Nat.min_eq_left hle]
      rw [List.flatMap_append, hsent, hspan, List.append_assoc, ← hq', List.take_append_drop]

end Transfer

end IrcLink
