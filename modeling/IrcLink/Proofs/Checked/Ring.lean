import IrcLink.Proofs.Checked.Basic
import IrcLink.Proofs.Ring.Span

/-!
A ring whose cursors are in order is asked for nothing that it does not have: no span leaves the storage, and a copy
makes headway with every pass.
-/

namespace IrcLink.Checked.Ring

def create (capacity : Nat) : Except Panic Ring :=
  if 0 < capacity then return ⟨Array.replicate capacity 0, 0, 0, 0⟩ else throw (.broken .zeroCapacity)

def free (r : Ring) : Except Panic Nat := sub r.capacity r.len

def readSpan (r : Ring) : Except Panic Bytes := do
  let n := min r.len (← sub r.capacity r.head)
  slice r.storage.toList r.head (r.head + n)

def consume (r : Ring) (n : Nat) : Except Panic Ring := do
  let available := (← readSpan r).length
  if n ≤ available then
    let _ ← sub r.len n
    return r.advanceHead n
  else throw (.broken (.consumeBeyond n available))

def writeSpan (r : Ring) : Except Panic Bytes := do
  let n := min (← free r) (← sub r.capacity r.tail)
  slice r.storage.toList r.tail (r.tail + n)

def reserve (r : Ring) (n : Nat) : Except Panic Ring := do
  let available := min (← free r) (← sub r.capacity r.tail)
  if n ≤ available then return r.advanceTail n else throw (.broken (.reserveBeyond n available))

/-- Copies from place `copied` of `src` what the free span takes, and no more than up to place `n`. -/
def copyPass (src : Bytes) (n copied : Nat) (r : Ring) : Except Panic (Nat × Ring) := do
  let span ← writeSpan r
  let part := min span.length (← sub n copied)
  let place ← slice span 0 part
  let moved ← slice src copied (copied + part)
  even place.length moved.length
  return (part, ← reserve (r.overwriteSpan moved) part)

def copy (src : Bytes) (n copied : Nat) (r : Ring) : Except Panic Ring :=
  if _h : copied < n then do
    let (part, r) ← copyPass src n copied r
    if _hpart : 0 < part then copy src n (copied + part) r else throw .endless
  else return r
termination_by n - copied

def put (r : Ring) (src : Bytes) : Except Panic (Ring × Nat) := do
  let n := min src.length (← free r)
  return (← copy src n 0 r, n)

variable {r : Ring}

theorem create_eq (capacity : Nat) : create capacity = lift (IrcLink.Ring.create capacity) := by
  rw [create, IrcLink.Ring.create]
  by_cases h : capacity = 0
  · rw [if_pos h, if_neg (by omega)]
    rfl
  · rw [if_neg h, if_pos (by omega)]
    rfl

theorem free_eq (h : r.WellFormed) : free r = .ok r.free := sub_eq_ok h.len_le

theorem readSpan_eq (h : r.WellFormed) : readSpan r = .ok r.readSpan := by
  have hh := h.head_lt
  have hl := h.len_le
  rw [readSpan, sub_eq_ok (Nat.le_of_lt hh)]
  dsimp only [bind, Except.bind]
  rw [slice_eq_ok (Nat.le_add_right _ _) (by rw [Ring.length_storage]; omega), IrcLink.Ring.readSpan,
    Array.toList_extract, List.extract_eq_take_drop]
  rfl

theorem consume_eq (h : r.WellFormed) (n : Nat) : consume r n = lift (r.consume n) := by
  have hl : r.readSpanLength ≤ r.len := Nat.min_le_left _ _
  rw [consume, readSpan_eq h]
  dsimp only [bind, Except.bind]
  rw [Ring.readSpan_length]
  by_cases hn : n ≤ r.readSpanLength
  · rw [if_pos hn, sub_eq_ok (by omega), Ring.consume_eq_ok hn]
    rfl
  · rw [if_neg hn, Ring.consume_eq_error hn]
    rfl

theorem writeSpan_eq (h : r.WellFormed) : writeSpan r = .ok r.freeSpan := by
  have ht := h.tail_lt
  rw [writeSpan, free_eq h, sub_eq_ok (Nat.le_of_lt ht)]
  dsimp only [bind, Except.bind]
  rw [slice_eq_ok (Nat.le_add_right _ _) (by rw [Ring.length_storage]; omega), Ring.freeSpan, Array.toList_extract,
    List.extract_eq_take_drop]
  rfl

theorem reserve_eq (h : r.WellFormed) (n : Nat) : reserve r n = lift (r.reserve n) := by
  rw [reserve, free_eq h, sub_eq_ok (Nat.le_of_lt h.tail_lt)]
  dsimp only [bind, Except.bind]
  by_cases hn : n ≤ r.writeSpanLength
  · rw [Ring.reserve_eq_ok hn]
    exact if_pos hn
  · rw [Ring.reserve_eq_error hn]
    exact if_neg hn

theorem putPass_eq {src : Bytes} {part : Nat} (hp : min r.writeSpanLength src.length = part) (hpos : 0 < part) :
    r.putPass src = some ((r.overwriteSpan (src.take part)).advanceTail part, src.drop part) := by
  subst hp
  exact if_neg (Nat.ne_of_gt hpos)

theorem copyPass_eq {src : Bytes} {n copied part : Nat} (h : r.WellFormed) (hc : copied ≤ n) (hn : n ≤ src.length)
    (hp : min r.writeSpanLength (n - copied) = part) :
    copyPass src n copied r =
      .ok (part, (r.overwriteSpan (((src.take n).drop copied).take part)).advanceTail part) := by
  have hmoved : (src.drop copied).take part = ((src.take n).drop copied).take part := by
    rw [List.drop_take, List.take_take, Nat.min_eq_left (by omega)]
  have hlen : ((src.drop copied).take part).length = part := by
    rw [List.length_take, List.length_drop]
    omega
  rw [copyPass, writeSpan_eq h, sub_eq_ok hc]
  dsimp only [bind, Except.bind]
  rw [Ring.freeSpan_length, hp, slice_front (by rw [Ring.freeSpan_length]; omega),
    slice_eq_ok (Nat.le_add_right _ _) (by omega), Nat.add_sub_cancel_left]
  dsimp only
  rw [even_eq_ok (by rw [List.length_take, Ring.freeSpan_length, hlen]; omega)]
  dsimp only
  rw [reserve_eq (Ring.overwriteSpan_wellFormed h _),
    Ring.reserve_eq_ok (by rw [Ring.overwriteSpan_writeSpanLength]; omega), hmoved]
  rfl

theorem copy_eq {src : Bytes} {n copied : Nat} (h : r.WellFormed) (hc : copied ≤ n) (hn : n ≤ src.length)
    (hfree : n - copied ≤ r.free) : copy src n copied r = .ok (r.putAll ((src.take n).drop copied)) := by
  induction hk : n - copied using Nat.strongRecOn generalizing r copied with
  | ind k ih =>
    have hlen : ((src.take n).drop copied).length = n - copied := by
      rw [List.length_drop, List.length_take]
      omega
    rw [copy, Ring.putAll]
    by_cases hlt : copied < n
    · obtain ⟨part, hp⟩ : ∃ part, min r.writeSpanLength (n - copied) = part := ⟨_, rfl⟩
      have hz := Ring.writeSpanLength_eq_zero h
      have hpos : 0 < part := by omega
      have hfit : part ≤ (r.overwriteSpan (((src.take n).drop copied).take part)).writeSpanLength := by
        rw [Ring.overwriteSpan_writeSpanLength]
        omega
      -- what was copied takes up as much of the room
      have hleft := Ring.reserve_free (Ring.reserve_eq_ok hfit)
      rw [Ring.overwriteSpan_free] at hleft
      rw [dif_pos hlt, copyPass_eq h hc hn hp, putPass_eq (hlen ▸ hp) hpos]
      dsimp only [bind, Except.bind]
      rw [dif_pos hpos, ih (n - (copied + part)) (by omega)
        (Ring.advanceTail_wellFormed (Ring.overwriteSpan_wellFormed h _) hfit) (by omega) (by omega) rfl, List.drop_drop]
    · obtain rfl : copied = n := by omega
      have hnone : r.putPass ((src.take copied).drop copied) = none := by
        rw [List.eq_nil_of_length_eq_zero (hlen.trans (Nat.sub_self _))]
        exact if_pos (Nat.min_zero _)
      rw [dif_neg hlt, hnone]
      rfl

theorem put_eq (h : r.WellFormed) (src : Bytes) : put r src = .ok (r.put src) := by
  rw [put, free_eq h]
  dsimp only [bind, Except.bind]
  rw [copy_eq h (Nat.zero_le _) (Nat.min_le_left _ _) (by rw [Nat.sub_zero]; exact Nat.min_le_right _ _), List.drop_zero]
  rfl

end IrcLink.Checked.Ring
