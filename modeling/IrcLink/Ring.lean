import IrcLink.Bytes
import IrcLink.Fault

/-!
A queue of bytes in one block of storage. The queued bytes start at `head`, go round the end of the storage and
stop before `tail`; `len` counts them, so that `head = tail` is never in doubt between empty and full.

A caller either copies (`put`, `get`) or works on a span, the longest run of queued or free places that does not
go round the end: it looks at `readSpan` and then says how much it took (`consume`), or fills the free span and
says how much it wrote (`reserve`).
-/

namespace IrcLink

structure Ring where
  storage : Array UInt8
  head : Nat
  tail : Nat
  len : Nat
  deriving Repr, DecidableEq

namespace Ring

def create (capacity : Nat) : Except Fault Ring :=
  if capacity = 0 then .error .zeroCapacity else .ok ⟨Array.replicate capacity 0, 0, 0, 0⟩

variable (r : Ring)

def capacity : Nat := r.storage.size
def free : Nat := r.capacity - r.len
def isEmpty : Bool := r.len == 0
def isFull : Bool := r.len == r.capacity

def toList : Bytes := (r.storage.toList.drop r.head ++ r.storage.toList.take r.head).take r.len

/-- The cursors lie in the storage, and the tail is where the queued bytes end. -/
structure WellFormed : Prop where
  head_lt : r.head < r.capacity
  tail_lt : r.tail < r.capacity
  len_le : r.len ≤ r.capacity
  tail_eq : (r.head + r.len) % r.capacity = r.tail

def readSpanLength : Nat := min r.len (r.capacity - r.head)

def readSpan : Bytes := (r.storage.extract r.head (r.head + r.readSpanLength)).toList

def writeSpanLength : Nat := min r.free (r.capacity - r.tail)

/-- A drained queue starts again at the front of the storage, so that its free span is as long as it can be. -/
def advanceHead (n : Nat) : Ring :=
  if r.len - n = 0 then { r with head := 0, tail := 0, len := 0 }
  else { r with head := if r.head + n = r.capacity then 0 else r.head + n, len := r.len - n }

def advanceTail (n : Nat) : Ring :=
  { r with tail := if r.tail + n = r.capacity then 0 else r.tail + n, len := r.len + n }

def consume (n : Nat) : Except Fault Ring :=
  if n ≤ r.readSpanLength then .ok (r.advanceHead n)
  else .error (.consumeBeyond n r.readSpanLength)

def reserve (n : Nat) : Except Fault Ring :=
  if n ≤ r.writeSpanLength then .ok (r.advanceTail n)
  else .error (.reserveBeyond n r.writeSpanLength)

def overwrite (storage : Array UInt8) (i : Nat) : Bytes → Array UInt8
  | [] => storage
  | b :: rest => overwrite (storage.setIfInBounds i b) (i + 1) rest

/-- Writes into the free span without queueing; what goes beyond the span is not written. -/
def overwriteSpan (data : Bytes) : Ring :=
  { r with storage := overwrite r.storage r.tail (data.take r.writeSpanLength) }

def clear : Ring := { r with head := 0, tail := 0, len := 0 }

def putPass (src : Bytes) : Option (Ring × Bytes) :=
  let n := min r.writeSpanLength src.length
  if n = 0 then none else some ((r.overwriteSpan (src.take n)).advanceTail n, src.drop n)

def getPass (n : Nat) : Option (Bytes × Ring) :=
  let taken := r.readSpan.take n
  if taken = [] then none else some (taken, r.advanceHead taken.length)

theorem putPass_length {r r' : Ring} {src rest : Bytes} (h : r.putPass src = some (r', rest)) :
    rest.length < src.length := by
  simp only [putPass] at h
  split at h
  · simp at h
  · obtain ⟨rfl, rfl⟩ := by simpa using h
    simp only [List.length_drop]; omega

theorem getPass_length {r r' : Ring} {n : Nat} {taken : Bytes} (h : r.getPass n = some (taken, r')) :
    0 < taken.length ∧ taken.length ≤ n := by
  simp only [getPass] at h
  split at h
  · simp at h
  · rename_i hne
    obtain ⟨rfl, rfl⟩ := by simpa using h
    exact ⟨List.length_pos_iff.mpr hne, by simp only [List.length_take]; omega⟩

theorem readSpan_length : r.readSpan.length = r.readSpanLength := by
  simp only [readSpan, readSpanLength, capacity, Array.length_toList, Array.size_extract]; omega

theorem consume_len_add {r r' : Ring} {n : Nat} (h : r.consume n = .ok r') : r'.len + n = r.len := by
  unfold consume at h
  split at h
  · rename_i hn
    obtain rfl := by simpa using h
    simp only [readSpanLength] at hn
    unfold advanceHead
    split <;> simp only <;> omega
  · simp at h

theorem consume_len {r r' : Ring} (h : r.consume r.readSpan.length = .ok r') (hne : r.readSpan ≠ []) :
    r'.len < r.len := by
  have := consume_len_add h
  have := List.length_pos_iff.mpr hne
  omega

theorem reserve_free {r r' : Ring} {n : Nat} (h : r.reserve n = .ok r') : r'.free + n = r.free := by
  unfold reserve at h
  split at h
  · rename_i hn
    obtain rfl := by simpa using h
    simp only [writeSpanLength, free, capacity, advanceTail] at hn ⊢
    omega
  · simp at h

theorem size_overwrite (storage : Array UInt8) (i : Nat) (data : Bytes) :
    (overwrite storage i data).size = storage.size := by
  induction data generalizing storage i with
  | nil => rfl
  | cons b rest ih => simp only [overwrite, ih, Array.size_setIfInBounds]

theorem toList_overwrite {storage : Array UInt8} {i : Nat} {data : Bytes} (h : i + data.length ≤ storage.size) :
    (overwrite storage i data).toList =
      storage.toList.take i ++ data ++ storage.toList.drop (i + data.length) := by
  induction data generalizing storage i with
  | nil => simp [overwrite]
  | cons b rest ih =>
    simp only [List.length_cons] at h
    rw [overwrite, ih (by simp only [Array.size_setIfInBounds]; omega)]
    simp only [Array.toList_setIfInBounds, List.length_cons, List.drop_set, List.take_set]
    have hi : i < storage.toList.length := by simp only [Array.length_toList]; omega
    have hl : (storage.toList.take i).length = i := by rw [List.length_take]; omega
    rw [if_pos (by omega), List.take_succ_eq_append_getElem hi, List.set_append_right _ _ (Nat.le_of_eq hl), hl]
    simp [Nat.add_assoc, Nat.add_comm 1]

theorem overwriteSpan_free (data : Bytes) : (r.overwriteSpan data).free = r.free := by
  simp only [free, capacity, overwriteSpan, size_overwrite]

def putAll (r : Ring) (src : Bytes) : Ring :=
  match _h : r.putPass src with
  | none => r
  | some (r', rest) => putAll r' rest
termination_by src.length
decreasing_by exact putPass_length _h

def getAll (r : Ring) (n : Nat) : Bytes × Ring :=
  match _h : r.getPass n with
  | none => ([], r)
  | some (taken, r') =>
    let (more, last) := getAll r' (n - taken.length)
    (taken ++ more, last)
termination_by n
decreasing_by have := getPass_length _h; omega

def put (src : Bytes) : Ring × Nat :=
  let n := min src.length r.free
  (r.putAll (src.take n), n)

def get (n : Nat) : Bytes × Ring := r.getAll (min n r.len)

inductive StreamError where
  /-- The data did not fit; what fitted is queued. -/
  | writeZero
  /-- There was less than asked for; what there was is gone. -/
  | unexpectedEof
  deriving Repr, DecidableEq

def StreamError.message : StreamError → String
  | writeZero => "failed to write whole buffer"
  | unexpectedEof => "failed to fill whole buffer"

def writeAll (data : Bytes) : Except StreamError Unit × Ring :=
  let (r', n) := r.put data
  (if n = data.length then .ok () else .error .writeZero, r')

def readExact (n : Nat) : Except StreamError Bytes × Ring :=
  let (data, r') := r.get n
  (if data.length = n then .ok data else .error .unexpectedEof, r')

def readToEnd : Bytes × Ring := r.get r.len

def writeSpan (data : Bytes) : Ring × Nat :=
  let n := min r.writeSpanLength data.length
  ((r.overwriteSpan data).advanceTail n, n)

def takeSpan : Bytes × Ring := (r.readSpan, r.advanceHead r.readSpan.length)

end Ring

/-- What was received and not yet looked at, and what is to be sent. -/
structure Buffers where
  read : Ring
  write : Ring
  deriving Repr, DecidableEq

namespace Buffers

def create (capacity : Nat) : Except Fault Buffers := do
  let ring ← Ring.create capacity
  return ⟨ring, ring⟩

def clear (b : Buffers) : Buffers := ⟨b.read.clear, b.write.clear⟩

end Buffers

end IrcLink
