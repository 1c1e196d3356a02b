import IrcLink.Ring
import IrcLink.World

/-!
Moving bytes between a socket and a ring, span by span, until one of them can go no further. Each call moves at most
one span; what it moved is in the ring, or out of it, before the next.
-/

namespace IrcLink

structure Transferred (ω : Type) where
  stop : Stop
  moved : Nat
  ring : Ring
  world : World ω

inductive Pass (ω : Type) where
  | moved (n : Nat) (ring : Ring) (world : World ω)
  | stopped (stop : Stop) (world : World ω)

/-- One turn of a transfer's loop. After an interruption nothing has moved. -/
inductive Try (ω : Type) where
  | interrupted (world : World ω)
  | passed (p : Pass ω)

namespace Transfer

variable {ω : Type} (S : System ω) (s : Socket)

def receiveOnce (ring : Ring) (w : World ω) : Except Fault (Try ω) :=
  if ring.writeSpanLength = 0 then .ok (.passed (.stopped .ring w))
  else
    match w.call S (.read s ring.writeSpanLength) with
    | (.bytes [], w) => .ok (.passed (.stopped .lost w))
    | (.bytes data, w) =>
      ((ring.overwriteSpan data).reserve data.length).map fun ring => .passed (.moved data.length ring w)
    | (.interrupted, w) => .ok (.interrupted w)
    | (.wouldBlock, w) => .ok (.passed (.stopped .wouldBlock w))
    | (.failed _, w) => .ok (.passed (.stopped .lost w))

def transmitOnce (ring : Ring) (w : World ω) : Except Fault (Try ω) :=
  if ring.isEmpty then .ok (.passed (.stopped .ring w))
  else
    match w.call S (.write s ring.readSpan) with
    | (.accepted 0, w) => .ok (.passed (.stopped .lost w))
    | (.accepted n, w) => (ring.consume n).map fun ring => .passed (.moved n ring w)
    | (.interrupted, w) => .ok (.interrupted w)
    | (.wouldBlock, w) => .ok (.passed (.stopped .wouldBlock w))
    | (.failed _, w) => .ok (.passed (.stopped .lost w))

theorem receiveOnce_interrupted {ring : Ring} {w w' : World ω} (h : receiveOnce S s ring w = .ok (.interrupted w')) :
    w.call S (.read s ring.writeSpanLength) = (.interrupted, w') := by
  simp only [receiveOnce] at h
  split at h
  · simp at h
  · split at h
    · simp at h
    · rename_i data _ _ _
      cases hr : (ring.overwriteSpan data).reserve data.length <;> simp [hr, Except.map] at h
    · simp_all
    · simp at h
    · simp at h

theorem transmitOnce_interrupted {ring : Ring} {w w' : World ω}
    (h : transmitOnce S s ring w = .ok (.interrupted w')) :
    w.call S (.write s ring.readSpan) = (.interrupted, w') := by
  simp only [transmitOnce] at h
  split at h
  · simp at h
  · split at h
    · simp at h
    · rename_i n _ _ _
      cases hr : ring.consume n <;> simp [hr, Except.map] at h
    · simp_all
    · simp at h
    · simp at h

/-- Reads one span, and again if interrupted. The ring is as it was, so the same is asked for. -/
def receivePass (ring : Ring) (w : World ω) : Except Fault (Pass ω) :=
  match _h : receiveOnce S s ring w with
  | .error f => .error f
  | .ok (.passed p) => .ok p
  | .ok (.interrupted w) => receivePass ring w
termination_by S.interruptions (.read s ring.writeSpanLength) w.os
decreasing_by exact World.call_interruptions S (receiveOnce_interrupted S s _h) (by rfl)

def transmitPass (ring : Ring) (w : World ω) : Except Fault (Pass ω) :=
  match _h : transmitOnce S s ring w with
  | .error f => .error f
  | .ok (.passed p) => .ok p
  | .ok (.interrupted w) => transmitPass ring w
termination_by S.interruptions (.write s ring.readSpan) w.os
decreasing_by exact World.call_interruptions S (transmitOnce_interrupted S s _h) (by rfl)

/-- The turns of a pass: interrupted ones, and then one that is not. -/
inductive Retried (once : World ω → Except Fault (Try ω)) (p : Pass ω) : World ω → Prop
  | passed {w : World ω} (h : once w = .ok (.passed p)) : Retried once p w
  | interrupted {w w' : World ω} (h : once w = .ok (.interrupted w')) (hr : Retried once p w') : Retried once p w

theorem receivePass_retried {ring : Ring} {w : World ω} {p : Pass ω} (h : receivePass S s ring w = .ok p) :
    Retried (receiveOnce S s ring) p w := by
  fun_induction receivePass S s ring w with
  | case1 => simp at h
  | case2 w p' hp =>
    obtain rfl := Except.ok.inj h
    exact .passed hp
  | case3 _ _ hi ih => exact .interrupted hi (ih h)

theorem transmitPass_retried {ring : Ring} {w : World ω} {p : Pass ω} (h : transmitPass S s ring w = .ok p) :
    Retried (transmitOnce S s ring) p w := by
  fun_induction transmitPass S s ring w with
  | case1 => simp at h
  | case2 w p' hp =>
    obtain rfl := Except.ok.inj h
    exact .passed hp
  | case3 _ _ hi ih => exact .interrupted hi (ih h)

theorem Retried.once {once : World ω → Except Fault (Try ω)} {p : Pass ω} {w : World ω} (h : Retried once p w) :
    ∃ w, once w = .ok (.passed p) := by
  induction h with
  | passed h => exact ⟨_, h⟩
  | interrupted _ _ ih => exact ih

theorem receiveOnce_free {ring ring' : Ring} {w w' : World ω} {n : Nat}
    (h : receiveOnce S s ring w = .ok (.passed (.moved n ring' w'))) : ring'.free < ring.free := by
  simp only [receiveOnce] at h
  split at h
  · simp at h
  · split at h
    · simp at h
    · rename_i data _ hne _
      cases hr : (ring.overwriteSpan data).reserve data.length with
      | error f => simp [hr, Except.map] at h
      | ok r =>
        obtain ⟨-, rfl, -⟩ := by simpa [hr, Except.map] using h
        have hpos : 0 < data.length := List.length_pos_iff.mpr (by rintro rfl; exact hne rfl)
        have := Ring.reserve_free hr
        rw [Ring.overwriteSpan_free] at this
        omega
    · simp at h
    · simp at h
    · simp at h

theorem transmitOnce_len {ring ring' : Ring} {w w' : World ω} {n : Nat}
    (h : transmitOnce S s ring w = .ok (.passed (.moved n ring' w'))) : ring'.len < ring.len := by
  simp only [transmitOnce] at h
  split at h
  · simp at h
  · split at h
    · simp at h
    · rename_i n _ hn _
      cases hr : ring.consume n with
      | error f => simp [hr, Except.map] at h
      | ok r =>
        obtain ⟨-, rfl, -⟩ := by simpa [hr, Except.map] using h
        have := Ring.consume_len_add hr
        have : n ≠ 0 := hn
        omega
    · simp at h
    · simp at h
    · simp at h

theorem receivePass_free {ring ring' : Ring} {w w' : World ω} {n : Nat}
    (h : receivePass S s ring w = .ok (.moved n ring' w')) : ring'.free < ring.free := by
  obtain ⟨_, hp⟩ := (receivePass_retried S s h).once
  exact receiveOnce_free S s hp

theorem transmitPass_len {ring ring' : Ring} {w w' : World ω} {n : Nat}
    (h : transmitPass S s ring w = .ok (.moved n ring' w')) : ring'.len < ring.len := by
  obtain ⟨_, hp⟩ := (transmitPass_retried S s h).once
  exact transmitOnce_len S s hp

def receive (ring : Ring) (w : World ω) : Except Fault (Transferred ω) :=
  match _h : receivePass S s ring w with
  | .error f => .error f
  | .ok (.stopped stop w) => .ok ⟨stop, 0, ring, w⟩
  | .ok (.moved n ring' w') => (receive ring' w').map fun t => { t with moved := n + t.moved }
termination_by ring.free
decreasing_by exact receivePass_free S s _h

def transmit (ring : Ring) (w : World ω) : Except Fault (Transferred ω) :=
  match _h : transmitPass S s ring w with
  | .error f => .error f
  | .ok (.stopped stop w) => .ok ⟨stop, 0, ring, w⟩
  | .ok (.moved n ring' w') => (transmit ring' w').map fun t => { t with moved := n + t.moved }
termination_by ring.len
decreasing_by exact transmitPass_len S s _h

end Transfer

end IrcLink
