import IrcLink.Proofs.Ring.Span

/-!
A ring is a bounded queue of bytes. Whatever is asked of it, in any order, the ring stays in order, and its bytes are
those of the queue `Queue.apply` tells of: appended at one end as far as there is room, taken off at the other, and
untouched by a request that is refused.
-/

namespace IrcLink

inductive Ring.Op where
  | put (src : Bytes)
  | get (n : Nat)
  | consume (n : Nat)
  | reserve (n : Nat)
  | writeSpan (data : Bytes)
  | takeSpan
  | clear
  | write (data : Bytes)
  | writeAll (data : Bytes)
  | read (n : Nat)
  | readExact (n : Nat)
  | readToEnd

inductive Ring.Answer where
  | done
  | count (n : Nat)
  | bytes (data : Bytes)
  | refused (f : Fault)
  | failed (e : StreamError)

def Queue.apply (capacity : Nat) (readable standing q : Bytes) : Ring.Op → Ring.Answer × Bytes
  | .put src | .write src => (.count (min src.length (capacity - q.length)), q ++ src.take (capacity - q.length))
  | .get n | .read n => (.bytes (q.take n), q.drop n)
  | .consume n =>
    if n ≤ readable.length then (.done, q.drop n) else (.refused (.consumeBeyond n readable.length), q)
  | .reserve n =>
    if n ≤ standing.length then (.done, q ++ standing.take n) else (.refused (.reserveBeyond n standing.length), q)
  | .writeSpan data => (.count (min standing.length data.length), q ++ data.take standing.length)
  | .takeSpan => (.bytes readable, q.drop readable.length)
  | .clear => (.done, [])
  | .writeAll data =>
    if data.length ≤ capacity - q.length then (.done, q ++ data)
    else (.failed .writeZero, q ++ data.take (capacity - q.length))
  | .readExact n => if n ≤ q.length then (.bytes (q.take n), q.drop n) else (.failed .unexpectedEof, [])
  | .readToEnd => (.bytes q, [])

namespace Ring

variable {r : Ring} {C : Nat} {q : Bytes}

def apply (r : Ring) : Op → Answer × Ring
  | .put src | .write src => (.count (r.put src).2, (r.put src).1)
  | .get n | .read n => (.bytes (r.get n).1, (r.get n).2)
  | .consume n => match r.consume n with
    | .ok r' => (.done, r')
    | .error f => (.refused f, r)
  | .reserve n => match r.reserve n with
    | .ok r' => (.done, r')
    | .error f => (.refused f, r)
  | .writeSpan data => (.count (r.writeSpan data).2, (r.writeSpan data).1)
  | .takeSpan => (.bytes r.takeSpan.1, r.takeSpan.2)
  | .clear => (.done, r.clear)
  | .writeAll data => match r.writeAll data with
    | (.ok (), r') => (.done, r')
    | (.error e, r') => (.failed e, r')
  | .readExact n => match r.readExact n with
    | (.ok data, r') => (.bytes data, r')
    | (.error e, r') => (.failed e, r')
  | .readToEnd => (.bytes r.readToEnd.1, r.readToEnd.2)

def run (r : Ring) : List Op → Ring
  | [] => r
  | op :: ops => run (r.apply op).2 ops

theorem writeAll_eq (r : Ring) (data : Bytes) :
    r.writeAll data = (if (r.put data).2 = data.length then .ok () else .error .writeZero, (r.put data).1) := rfl

theorem readExact_eq (r : Ring) (n : Nat) :
    r.readExact n = (if (r.get n).1.length = n then .ok (r.get n).1 else .error .unexpectedEof, (r.get n).2) := rfl

namespace Holds

theorem putPass_none (h : r.Holds C q) {src : Bytes} (hp : r.putPass src = none) : src = [] ∨ q.length = C := by
  have hl := h.length_le
  have hw := h.writeSpanLength_pos
  simp only [putPass] at hp
  split at hp
  · by_cases hs : src = []
    · exact .inl hs
    · have := List.length_pos_iff.mpr hs
      right; omega
  · simp at hp

theorem putPass_some (h : r.Holds C q) {src rest : Bytes} {r' : Ring} (hp : r.putPass src = some (r', rest)) :
    ∃ moved, src = moved ++ rest ∧ r'.Holds C (q ++ moved) := by
  simp only [putPass] at hp
  split at hp
  · simp at hp
  · obtain ⟨rfl, rfl⟩ := by simpa using hp
    have hl := List.length_take_of_le (Nat.min_le_right r.writeSpanLength src.length)
    have hf := h.fill (show (src.take (min r.writeSpanLength src.length)).length ≤ r.writeSpanLength by omega)
    rw [hl] at hf
    exact ⟨_, (List.take_append_drop _ _).symm, hf⟩

theorem putAll (h : r.Holds C q) {src : Bytes} (hs : q.length + src.length ≤ C) :
    (r.putAll src).Holds C (q ++ src) := by
  induction r, src using putAll.induct generalizing q with
  | case1 r src hp =>
    rw [Ring.putAll, hp]
    obtain rfl | hq := h.putPass_none hp
    · simpa using h
    · obtain rfl : src = [] := List.eq_nil_of_length_eq_zero (by omega)
      simpa using h
  | case2 r src r' rest hp ih =>
    rw [Ring.putAll, hp]
    obtain ⟨moved, rfl, h'⟩ := h.putPass_some hp
    rw [List.length_append] at hs
    rw [← List.append_assoc]
    exact ih h' (by rw [List.length_append]; omega)

theorem put (h : r.Holds C q) (src : Bytes) :
    (r.put src).2 = min src.length (C - q.length) ∧ (r.put src).1.Holds C (q ++ src.take (C - q.length)) := by
  have hl := h.length_le
  rw [Ring.put, h.free_eq]
  refine ⟨rfl, ?_⟩
  have ht : src.take (min src.length (C - q.length)) = src.take (C - q.length) := by
    rw [← List.take_take, List.take_of_length_le (by rw [List.length_take]; omega)]
  rw [ht]
  apply h.putAll
  rw [List.length_take]; omega

theorem put_of_le (h : r.Holds C q) {src : Bytes} (hs : q.length + src.length ≤ C) : (r.put src).1.Holds C (q ++ src) := by
  have hp := (h.put src).2
  rwa [List.take_of_length_le (by omega)] at hp

theorem getPass_none (h : r.Holds C q) {n : Nat} (hg : r.getPass n = none) : n = 0 ∨ q = [] := by
  simp only [getPass] at hg
  split at hg
  · rename_i ht
    by_cases hq : q = []
    · exact .inr hq
    · have hp := h.readSpanLength_pos hq
      rw [← readSpan_length] at hp
      obtain hn | hs := List.take_eq_nil_iff.mp ht
      · exact .inl hn
      · rw [hs] at hp
        exact absurd hp (Nat.lt_irrefl 0)
  · simp at hg

theorem getPass_some (h : r.Holds C q) {n : Nat} {taken : Bytes} {r' : Ring} (hg : r.getPass n = some (taken, r')) :
    taken = q.take taken.length ∧ r'.Holds C (q.drop taken.length) := by
  simp only [getPass] at hg
  split at hg
  · simp at hg
  · obtain ⟨rfl, rfl⟩ := Prod.mk.inj (Option.some.inj hg)
    have hl : (r.readSpan.take n).length ≤ r.readSpanLength := by
      rw [List.length_take, readSpan_length]; omega
    refine ⟨?_, h.advanceHead hl⟩
    have hp : r.readSpan.take n <+: q := (List.take_prefix _ _).trans (h.readSpan_eq ▸ List.take_prefix _ _)
    exact List.prefix_iff_eq_take.mp hp

theorem getAll (h : r.Holds C q) (n : Nat) :
    (r.getAll n).1 = q.take n ∧ (r.getAll n).2.Holds C (q.drop n) := by
  induction r, n using getAll.induct generalizing q with
  | case1 r n hg =>
    rw [Ring.getAll, hg]
    obtain rfl | rfl := h.getPass_none hg
    · exact ⟨rfl, h⟩
    · simpa using h
  | case2 r n taken r' hg more last hm ih =>
    rw [Ring.getAll, hg]
    have hle := (getPass_length hg).2
    obtain ⟨ht, h'⟩ := h.getPass_some hg
    obtain ⟨hmore, hlast⟩ := ih h'
    rw [List.drop_drop, Nat.add_sub_cancel' hle] at hlast
    refine ⟨?_, hlast⟩
    calc taken ++ (r'.getAll (n - taken.length)).1
        = q.take taken.length ++ (q.drop taken.length).take (n - taken.length) := by rw [← ht, hmore]
      _ = q.take (taken.length + (n - taken.length)) := List.take_add.symm
      _ = q.take n := by rw [Nat.add_sub_cancel' hle]

theorem get (h : r.Holds C q) (n : Nat) : (r.get n).1 = q.take n ∧ (r.get n).2.Holds C (q.drop n) := by
  obtain ⟨ht, hd⟩ := h.getAll (min n r.len)
  rw [h.len_eq] at ht hd
  have hmin : q.take (min n q.length) = q.take n := by
    rw [← List.take_take, List.take_length]
  have hdrop : q.drop (min n q.length) = q.drop n := by
    by_cases hn : n ≤ q.length
    · rw [Nat.min_eq_left hn]
    · rw [Nat.min_eq_right (by omega), List.drop_length, List.drop_eq_nil_of_le (by omega)]
  rw [Ring.get, h.len_eq]
  exact ⟨ht.trans hmin, hdrop ▸ hd⟩

theorem writeSpan (h : r.Holds C q) (data : Bytes) :
    (r.writeSpan data).2 = min r.freeSpan.length data.length ∧
      (r.writeSpan data).1.Holds C (q ++ data.take r.freeSpan.length) := by
  rw [freeSpan_length, Ring.writeSpan, ← overwriteSpan_take, ← List.length_take]
  exact ⟨rfl, h.fill (by rw [List.length_take]; omega)⟩

end Holds

theorem apply_eq (h : r.Holds C q) (op : Op) :
    (r.apply op).1 = (Queue.apply C r.readSpan r.freeSpan q op).1 ∧
      (r.apply op).2.Holds C (Queue.apply C r.readSpan r.freeSpan q op).2 := by
  cases op with
  | put src | write src =>
    obtain ⟨hn, hr⟩ := h.put src
    exact ⟨congrArg Answer.count hn, hr⟩
  | get n | read n =>
    obtain ⟨hb, hr⟩ := h.get n
    exact ⟨congrArg Answer.bytes hb, hr⟩
  | consume n =>
    rw [apply, Queue.apply, readSpan_length]
    by_cases hn : n ≤ r.readSpanLength
    · rw [if_pos hn, consume_eq_ok hn]
      exact ⟨rfl, h.advanceHead hn⟩
    · rw [if_neg hn, consume_eq_error hn]
      exact ⟨rfl, h⟩
  | reserve n =>
    rw [apply, Queue.apply, freeSpan_length]
    by_cases hn : n ≤ r.writeSpanLength
    · rw [if_pos hn, reserve_eq_ok hn]
      exact ⟨rfl, h.advanceTail hn⟩
    · rw [if_neg hn, reserve_eq_error hn]
      exact ⟨rfl, h⟩
  | writeSpan data =>
    obtain ⟨hn, hr⟩ := h.writeSpan data
    exact ⟨congrArg Answer.count hn, hr⟩
  | takeSpan => exact ⟨rfl, h.advanceHead (Nat.le_of_eq (readSpan_length r))⟩
  | clear => exact ⟨rfl, h.clear⟩
  | writeAll data =>
    obtain ⟨hn, hr⟩ := h.put data
    rw [apply, Queue.apply, writeAll_eq, hn]
    by_cases hd : data.length ≤ C - q.length
    · rw [if_pos hd, if_pos (Nat.min_eq_left hd)]
      rw [List.take_of_length_le hd] at hr
      exact ⟨rfl, hr⟩
    · rw [if_neg hd, if_neg (by omega)]
      exact ⟨rfl, hr⟩
  | readExact n =>
    obtain ⟨hb, hr⟩ := h.get n
    rw [apply, Queue.apply, readExact_eq, hb, List.length_take]
    by_cases hn : n ≤ q.length
    · rw [if_pos hn, if_pos (Nat.min_eq_left hn)]
      exact ⟨rfl, hr⟩
    · rw [if_neg hn, if_neg (by omega)]
      rw [List.drop_eq_nil_of_le (by omega)] at hr
      exact ⟨rfl, hr⟩
  | readToEnd =>
    obtain ⟨hb, hr⟩ := h.get r.len
    rw [h.len_eq, List.take_length] at hb
    rw [h.len_eq, List.drop_length] at hr
    rw [apply, Queue.apply, readToEnd, h.len_eq, hb]
    exact ⟨rfl, hr⟩

theorem run_holds (h : r.Holds C q) (ops : List Op) : ∃ q', (r.run ops).Holds C q' := by
  induction ops generalizing r q with
  | nil => exact ⟨q, h⟩
  | cons op ops ih => exact ih (apply_eq h op).2

theorem run_is_queue {C : Nat} (hC : 0 < C) :
    ∃ start, create C = .ok start ∧ start.toList = [] ∧ ∀ ops : List Op,
      let r := start.run ops
      let q := r.toList
      (r.WellFormed ∧ r.capacity = C) ∧
      (q.length = r.len ∧ ∀ i < r.len, q[i]? = r.storage.toList[(r.head + i) % C]?) ∧
      (r.readSpan <+: q ∧ (q ≠ [] → r.readSpan ≠ [])) ∧
      (q.length + r.freeSpan.length ≤ C ∧ (q.length < C → r.freeSpan ≠ [])) ∧
      ∀ op, ((r.apply op).1, (r.apply op).2.toList) = Queue.apply C r.readSpan r.freeSpan q op := by
  obtain ⟨start, hs, h⟩ := holds_of_create hC
  refine ⟨start, hs, h.toList_eq, fun ops => ?_⟩
  obtain ⟨q, hq⟩ := run_holds h ops
  dsimp only
  refine ⟨⟨hq.wellFormed, hq.capacity_eq⟩, ⟨length_toList hq.wellFormed, ?_⟩, ?_⟩
  · intro i hi
    rw [getElem?_toList hq.wellFormed, if_pos hi, place_eq_mod hq.wellFormed hi, hq.capacity_eq]
  rw [hq.toList_eq]
  refine ⟨⟨?_, ?_⟩, ⟨?_, ?_⟩, ?_⟩
  · rw [hq.readSpan_eq]
    exact List.take_prefix _ _
  · intro hne
    rw [← List.length_pos_iff, readSpan_length]
    exact hq.readSpanLength_pos hne
  · have := hq.writeSpanLength_le
    have := hq.length_le
    rw [freeSpan_length]; omega
  · intro hlt
    rw [← List.length_pos_iff, freeSpan_length]
    exact hq.writeSpanLength_pos hlt
  · intro op
    obtain ⟨ha, hh⟩ := apply_eq hq op
    rw [ha, hh.toList_eq]

theorem run_is_queue_round_the_end :
    0 < 4 ∧ ∃ start, create 4 = .ok start ∧
      (start.run [.put [1, 2, 3], .get 2, .put [4, 5, 6, 7]]).toList = [3, 4, 5, 6] ∧
      ((start.run [.put [1, 2, 3], .get 2, .put [4, 5, 6, 7]]).apply .readToEnd).1 = .bytes [3, 4, 5, 6] := by
  refine ⟨by decide, ?_⟩
  obtain ⟨start, hs, he, h⟩ := run_is_queue (C := 4) (by decide)
  have h1 := (Prod.mk.inj ((h []).2.2.2.2 (.put [1, 2, 3]))).2
  have h2 := (Prod.mk.inj ((h [.put [1, 2, 3]]).2.2.2.2 (.get 2))).2
  have h3 := (Prod.mk.inj ((h [.put [1, 2, 3], .get 2]).2.2.2.2 (.put [4, 5, 6, 7]))).2
  have h4 := (Prod.mk.inj ((h [.put [1, 2, 3], .get 2, .put [4, 5, 6, 7]]).2.2.2.2 .readToEnd)).1
  simp only [run] at h1 h2 h3 h4 ⊢
  rw [he] at h1
  rw [h1] at h2
  rw [h2] at h3
  rw [h3] at h4
  exact ⟨start, hs, h3, h4⟩

end Ring

end IrcLink
