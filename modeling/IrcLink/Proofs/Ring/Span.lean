import IrcLink.Ring
import Mathlib.Tactic.SplitIfs

/-!
The queued bytes, seen through the two spans. The read span is where they begin, no queued byte stands in the free
span, and moving a cursor takes bytes off the one end or adds what stands in the free span at the other. `Ring.Holds`
sums up what the users of a ring have to know of it.
-/

namespace IrcLink.Ring

variable {r : Ring}

def place (r : Ring) (i : Nat) : Nat := if r.head + i < r.capacity then r.head + i else r.head + i - r.capacity

def freeSpan (r : Ring) : Bytes := (r.storage.extract r.tail (r.tail + r.writeSpanLength)).toList

theorem WellFormed.tail_cases (h : r.WellFormed) :
    r.head + r.len < r.capacity ∧ r.tail = r.head + r.len ∨
      r.capacity ≤ r.head + r.len ∧ r.tail + r.capacity = r.head + r.len := by
  have hh := h.head_lt
  have hl := h.len_le
  have ht := h.tail_eq
  by_cases hs : r.head + r.len < r.capacity
  · rw [Nat.mod_eq_of_lt hs] at ht
    exact .inl ⟨hs, ht.symm⟩
  · rw [Nat.mod_eq_sub_mod (by omega), Nat.mod_eq_of_lt (by omega)] at ht
    exact .inr ⟨by omega, by omega⟩

theorem wellFormed_of_cases (hh : r.head < r.capacity) (hl : r.len ≤ r.capacity)
    (ht : r.head + r.len < r.capacity ∧ r.tail = r.head + r.len ∨
      r.capacity ≤ r.head + r.len ∧ r.tail + r.capacity = r.head + r.len) : r.WellFormed := by
  obtain ⟨hs, ht⟩ | ⟨hs, ht⟩ := ht
  · exact ⟨hh, by omega, hl, by rw [Nat.mod_eq_of_lt hs, ht]⟩
  · refine ⟨hh, by omega, hl, ?_⟩
    rw [Nat.mod_eq_sub_mod hs, Nat.mod_eq_of_lt (by omega)]
    omega

theorem length_storage (r : Ring) : r.storage.toList.length = r.capacity := Array.length_toList

theorem length_toList (h : r.WellFormed) : r.toList.length = r.len := by
  have hh := h.head_lt
  have hl := h.len_le
  simp only [toList, List.length_take, List.length_append, List.length_drop, length_storage]
  omega

theorem getElem?_toList (h : r.WellFormed) (i : Nat) :
    r.toList[i]? = if i < r.len then r.storage.toList[r.place i]? else none := by
  have hh := h.head_lt
  have hl := h.len_le
  simp only [toList, List.getElem?_take, List.getElem?_append, List.length_drop, List.getElem?_drop, length_storage,
    place]
  split_ifs
  any_goals omega
  · rfl
  · congr 1; omega
  · rfl

theorem place_eq_mod (h : r.WellFormed) {i : Nat} (hi : i < r.len) : r.place i = (r.head + i) % r.capacity := by
  have hh := h.head_lt
  have hl := h.len_le
  rw [place]
  split
  · rename_i hs
    rw [Nat.mod_eq_of_lt hs]
  · rw [Nat.mod_eq_sub_mod (by omega), Nat.mod_eq_of_lt (by omega)]

theorem readSpan_eq_take (h : r.WellFormed) : r.readSpan = r.toList.take r.readSpanLength := by
  have hh := h.head_lt
  simp only [readSpan, toList, Array.toList_extract, List.extract_eq_take_drop, List.take_take, Nat.add_sub_cancel_left]
  rw [List.take_append_of_le_length]
  · congr 1
    simp only [readSpanLength]; omega
  · simp only [readSpanLength, List.length_drop, length_storage]; omega

theorem freeSpan_length (r : Ring) : r.freeSpan.length = r.writeSpanLength := by
  simp only [freeSpan, writeSpanLength, capacity, Array.length_toList, Array.size_extract]; omega

@[simp]
theorem advanceHead_storage (r : Ring) (n : Nat) : (r.advanceHead n).storage = r.storage := by
  unfold advanceHead; split <;> rfl

@[simp]
theorem advanceHead_capacity (r : Ring) (n : Nat) : (r.advanceHead n).capacity = r.capacity := by
  simp only [capacity, advanceHead_storage]

@[simp]
theorem advanceHead_len (r : Ring) (n : Nat) : (r.advanceHead n).len = r.len - n := by
  unfold advanceHead; split <;> simp_all

@[simp]
theorem advanceTail_capacity (r : Ring) (n : Nat) : (r.advanceTail n).capacity = r.capacity := rfl

@[simp]
theorem overwriteSpan_capacity (r : Ring) (data : Bytes) : (r.overwriteSpan data).capacity = r.capacity :=
  size_overwrite _ _ _

theorem advanceHead_of_lt (r : Ring) {n : Nat} (hn : n < r.len) :
    r.advanceHead n = { r with head := if r.head + n = r.capacity then 0 else r.head + n, len := r.len - n } := by
  rw [advanceHead, if_neg (by omega)]

theorem advanceHead_wellFormed (h : r.WellFormed) {n : Nat} (hn : n ≤ r.readSpanLength) :
    (r.advanceHead n).WellFormed := by
  have hh := h.head_lt
  have hl := h.len_le
  have ht := h.tail_cases
  simp only [readSpanLength] at hn
  by_cases hz : r.len - n = 0
  · rw [advanceHead, if_pos hz]
    have hc : 0 < r.capacity := by omega
    exact ⟨hc, hc, Nat.zero_le _, Nat.zero_mod _⟩
  · rw [advanceHead_of_lt r (by omega)]
    by_cases he : r.head + n = r.capacity
    · rw [if_pos he]
      apply wellFormed_of_cases <;> simp only [capacity] at * <;> omega
    · rw [if_neg he]
      apply wellFormed_of_cases <;> simp only [capacity] at * <;> omega

theorem readSpanLength_advanceHead (h : r.WellFormed) :
    (r.advanceHead r.readSpanLength).readSpanLength = r.len - r.readSpanLength := by
  have hh := h.head_lt
  have hl := h.len_le
  by_cases hn : r.readSpanLength < r.len
  · have hend : r.head + r.readSpanLength = r.capacity := by
      simp only [readSpanLength] at hn ⊢
      omega
    rw [advanceHead_of_lt r hn, if_pos hend]
    simp only [readSpanLength, capacity] at hn hl ⊢
    omega
  · rw [advanceHead, if_pos (by omega)]
    simp only [readSpanLength] at hn ⊢
    omega

theorem place_advanceHead (h : r.WellFormed) {n i : Nat} (hi : n + i < r.len) :
    (r.advanceHead n).place i = r.place (n + i) := by
  have hh := h.head_lt
  have hl := h.len_le
  rw [place, place, advanceHead_capacity, advanceHead_of_lt r (by omega)]
  dsimp only
  split_ifs <;> omega

theorem toList_advanceHead (h : r.WellFormed) {n : Nat} (hn : n ≤ r.readSpanLength) :
    (r.advanceHead n).toList = r.toList.drop n := by
  apply List.ext_getElem?
  intro i
  rw [getElem?_toList (advanceHead_wellFormed h hn), List.getElem?_drop, getElem?_toList h, advanceHead_len,
    advanceHead_storage]
  by_cases hi : n + i < r.len
  · rw [if_pos hi, if_pos (by omega), place_advanceHead h hi]
  · rw [if_neg hi, if_neg (by omega)]

theorem advanceTail_wellFormed (h : r.WellFormed) {n : Nat} (hn : n ≤ r.writeSpanLength) :
    (r.advanceTail n).WellFormed := by
  have hh := h.head_lt
  have hl := h.len_le
  have ht := h.tail_cases
  simp only [writeSpanLength, free] at hn
  by_cases he : r.tail + n = r.capacity
  · rw [advanceTail, if_pos he]
    apply wellFormed_of_cases <;> simp only [capacity] at * <;> omega
  · rw [advanceTail, if_neg he]
    apply wellFormed_of_cases <;> simp only [capacity] at * <;> omega

theorem place_len_add (h : r.WellFormed) {i : Nat} (hi : i < r.writeSpanLength) :
    r.place (r.len + i) = r.tail + i := by
  have hl := h.len_le
  have ht := h.tail_cases
  simp only [writeSpanLength, free] at hi
  unfold place
  split_ifs <;> omega

theorem toList_advanceTail (h : r.WellFormed) {n : Nat} (hn : n ≤ r.writeSpanLength) :
    (r.advanceTail n).toList = r.toList ++ r.freeSpan.take n := by
  apply List.ext_getElem?
  intro i
  rw [getElem?_toList (advanceTail_wellFormed h hn), List.getElem?_append, length_toList h, getElem?_toList h]
  change (if i < r.len + n then r.storage.toList[r.place i]? else none) = _
  simp only [freeSpan, Array.toList_extract, List.extract_eq_take_drop, List.getElem?_take, List.getElem?_drop,
    Nat.add_sub_cancel_left]
  by_cases hi : i < r.len
  · rw [if_pos hi, if_pos (by omega), if_pos hi]
  · rw [if_neg hi]
    by_cases hin : i - r.len < n
    · have hp := place_len_add h (show i - r.len < r.writeSpanLength by omega)
      rw [Nat.add_sub_cancel' (by omega)] at hp
      rw [if_pos (by omega), if_pos hin, if_pos (by omega), hp]
    · rw [if_neg (by omega), if_neg hin]

theorem overwriteSpan_wellFormed (h : r.WellFormed) (data : Bytes) : (r.overwriteSpan data).WellFormed := by
  obtain ⟨hh, ht, hl, he⟩ := h
  constructor <;> rw [overwriteSpan_capacity] <;> assumption

theorem storage_overwriteSpan (h : r.WellFormed) {data : Bytes} (hd : data.length ≤ r.writeSpanLength) :
    (r.overwriteSpan data).storage.toList =
      r.storage.toList.take r.tail ++ data ++ r.storage.toList.drop (r.tail + data.length) := by
  have ht := h.tail_lt
  have hw : r.writeSpanLength ≤ r.capacity - r.tail := Nat.min_le_right _ _
  dsimp only [overwriteSpan]
  rw [List.take_of_length_le hd]
  exact toList_overwrite (show r.tail + data.length ≤ r.capacity by omega)

theorem overwriteSpan_take (r : Ring) (data : Bytes) :
    r.overwriteSpan (data.take r.writeSpanLength) = r.overwriteSpan data := by
  simp only [overwriteSpan, List.take_take, Nat.min_self]

theorem place_outside (h : r.WellFormed) {i : Nat} (hi : i < r.len) :
    r.place i < r.tail ∨ r.tail + r.writeSpanLength ≤ r.place i := by
  have hh := h.head_lt
  have hl := h.len_le
  have ht := h.tail_cases
  simp only [writeSpanLength, free, place]
  split_ifs <;> omega

theorem toList_overwriteSpan (h : r.WellFormed) {data : Bytes} (hd : data.length ≤ r.writeSpanLength) :
    (r.overwriteSpan data).toList = r.toList := by
  apply List.ext_getElem?
  intro i
  rw [getElem?_toList (overwriteSpan_wellFormed h data), getElem?_toList h, storage_overwriteSpan h hd, place,
    overwriteSpan_capacity]
  change (if i < r.len then _[r.place i]? else none) = _
  by_cases hi : i < r.len
  · have hp := place_outside h hi
    have ht := h.tail_lt
    rw [if_pos hi, if_pos hi]
    simp only [List.getElem?_append, List.getElem?_take, List.getElem?_drop, List.length_append, List.length_take,
      length_storage]
    split_ifs
    any_goals omega
    · rfl
    · congr 1; omega
  · rw [if_neg hi, if_neg hi]

theorem overwriteSpan_writeSpanLength (r : Ring) (data : Bytes) :
    (r.overwriteSpan data).writeSpanLength = r.writeSpanLength := by
  rw [writeSpanLength, writeSpanLength, overwriteSpan_free, overwriteSpan_capacity]
  rfl

theorem freeSpan_overwriteSpan (h : r.WellFormed) {data : Bytes} (hd : data.length ≤ r.writeSpanLength) :
    (r.overwriteSpan data).freeSpan.take data.length = data := by
  have ht := h.tail_lt
  rw [freeSpan, overwriteSpan_writeSpanLength, Array.toList_extract, storage_overwriteSpan h hd,
    List.extract_eq_take_drop, List.take_take, Nat.add_sub_cancel_left, Nat.min_eq_left hd]
  have hl : (r.storage.toList.take r.tail).length = r.tail := by
    rw [List.length_take, length_storage]; omega
  change List.take _ (List.drop r.tail _) = data
  rw [List.append_assoc, List.drop_left' hl, List.take_left]

theorem fill_wellFormed (h : r.WellFormed) {data : Bytes} (hd : data.length ≤ r.writeSpanLength) :
    ((r.overwriteSpan data).advanceTail data.length).WellFormed := by
  apply advanceTail_wellFormed (overwriteSpan_wellFormed h data)
  rwa [overwriteSpan_writeSpanLength]

theorem toList_fill (h : r.WellFormed) {data : Bytes} (hd : data.length ≤ r.writeSpanLength) :
    ((r.overwriteSpan data).advanceTail data.length).toList = r.toList ++ data := by
  rw [toList_advanceTail (overwriteSpan_wellFormed h data), toList_overwriteSpan h hd, freeSpan_overwriteSpan h hd]
  rwa [overwriteSpan_writeSpanLength]

theorem readSpanLength_eq_zero (h : r.WellFormed) : r.readSpanLength = 0 ↔ r.len = 0 := by
  have hh := h.head_lt
  simp only [readSpanLength]; omega

theorem writeSpanLength_eq_zero (h : r.WellFormed) : r.writeSpanLength = 0 ↔ r.free = 0 := by
  have ht := h.tail_lt
  simp only [writeSpanLength]; omega

/-- The ring is in order, has so much room, and these bytes are queued in it. -/
structure Holds (r : Ring) (capacity : Nat) (q : Bytes) : Prop where
  wellFormed : r.WellFormed
  capacity_eq : r.capacity = capacity
  toList_eq : r.toList = q

namespace Holds

variable {C : Nat} {q : Bytes}

theorem len_eq (h : r.Holds C q) : r.len = q.length := by rw [← h.toList_eq, length_toList h.wellFormed]

theorem free_eq (h : r.Holds C q) : r.free = C - q.length := by rw [free, h.capacity_eq, h.len_eq]

theorem length_le (h : r.Holds C q) : q.length ≤ C := by
  rw [← h.len_eq, ← h.capacity_eq]; exact h.wellFormed.len_le

theorem readSpan_eq (h : r.Holds C q) : r.readSpan = q.take r.readSpanLength := by
  rw [readSpan_eq_take h.wellFormed, h.toList_eq]

theorem readSpanLength_pos (h : r.Holds C q) (hq : q ≠ []) : 0 < r.readSpanLength := by
  have hz := readSpanLength_eq_zero h.wellFormed
  have hl := List.length_pos_iff.mpr hq
  rw [h.len_eq] at hz
  omega

theorem writeSpanLength_pos (h : r.Holds C q) (hq : q.length < C) : 0 < r.writeSpanLength := by
  have hz := writeSpanLength_eq_zero h.wellFormed
  rw [h.free_eq] at hz
  omega

theorem writeSpanLength_le (h : r.Holds C q) : r.writeSpanLength ≤ C - q.length := by
  rw [← h.free_eq]; exact Nat.min_le_left _ _

theorem advanceHead (h : r.Holds C q) {n : Nat} (hn : n ≤ r.readSpanLength) : (r.advanceHead n).Holds C (q.drop n) :=
  ⟨advanceHead_wellFormed h.wellFormed hn, (advanceHead_capacity r n).trans h.capacity_eq, by
    rw [toList_advanceHead h.wellFormed hn, h.toList_eq]⟩

theorem advanceTail (h : r.Holds C q) {n : Nat} (hn : n ≤ r.writeSpanLength) :
    (r.advanceTail n).Holds C (q ++ r.freeSpan.take n) :=
  ⟨advanceTail_wellFormed h.wellFormed hn, h.capacity_eq, by
    rw [toList_advanceTail h.wellFormed hn, h.toList_eq]⟩

theorem fill (h : r.Holds C q) {data : Bytes} (hd : data.length ≤ r.writeSpanLength) :
    ((r.overwriteSpan data).advanceTail data.length).Holds C (q ++ data) :=
  ⟨fill_wellFormed h.wellFormed hd, (overwriteSpan_capacity r data).trans h.capacity_eq, by
    rw [toList_fill h.wellFormed hd, h.toList_eq]⟩

theorem clear (h : r.Holds C q) : r.clear.Holds C [] := by
  have hc : 0 < r.capacity := Nat.zero_lt_of_lt h.wellFormed.head_lt
  exact ⟨⟨hc, hc, Nat.zero_le _, Nat.zero_mod _⟩, h.capacity_eq, rfl⟩

theorem isEmpty_iff (h : r.Holds C q) : r.isEmpty ↔ q = [] := by
  rw [isEmpty, h.len_eq, beq_iff_eq, List.length_eq_zero_iff]

end Holds

theorem WellFormed.holds_of_isEmpty (h : r.WellFormed) (he : r.isEmpty) : r.Holds r.capacity [] := by
  have hr : r.Holds r.capacity r.toList := ⟨h, rfl, rfl⟩
  exact hr.isEmpty_iff.mp he ▸ hr

theorem holds_of_create {C : Nat} (hC : 0 < C) : ∃ start, create C = .ok start ∧ start.Holds C [] := by
  have hs : (Array.replicate C (0 : UInt8)).size = C := Array.size_replicate
  refine ⟨⟨Array.replicate C 0, 0, 0, 0⟩, if_neg (by omega), ⟨?_, ?_, Nat.zero_le _, Nat.zero_mod _⟩, hs, rfl⟩
  all_goals
    simp only [capacity]
    omega

theorem create_holds {C : Nat} {start : Ring} (h : create C = .ok start) : start.Holds C [] := by
  have hC : 0 < C := by
    apply Nat.pos_of_ne_zero
    rintro rfl
    simp [create] at h
  obtain ⟨start', hs, hh⟩ := holds_of_create hC
  rw [h] at hs
  obtain rfl := Except.ok.inj hs
  exact hh

theorem consume_eq_ok {r : Ring} {n : Nat} (hn : n ≤ r.readSpanLength) : r.consume n = .ok (r.advanceHead n) :=
  if_pos hn

theorem consume_eq_error {r : Ring} {n : Nat} (hn : ¬ n ≤ r.readSpanLength) :
    r.consume n = .error (.consumeBeyond n r.readSpanLength) := if_neg hn

theorem reserve_eq_ok {r : Ring} {n : Nat} (hn : n ≤ r.writeSpanLength) : r.reserve n = .ok (r.advanceTail n) :=
  if_pos hn

theorem reserve_eq_error {r : Ring} {n : Nat} (hn : ¬ n ≤ r.writeSpanLength) :
    r.reserve n = .error (.reserveBeyond n r.writeSpanLength) := if_neg hn

end IrcLink.Ring
