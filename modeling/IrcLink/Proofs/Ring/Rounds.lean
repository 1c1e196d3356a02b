import IrcLink.Proofs.Ring.Queue

/-!
How often loops go round. What does not fit the first span fits the second, which starts at the front of the storage; so a
copy, of whatever size, is done after two.
-/

namespace IrcLink

section

variable {α : Type} {pass : α → α → Prop} {ended : α → Prop} {a b c : α} {n : Nat}

inductive Rounds (pass : α → α → Prop) (ended : α → Prop) : Nat → α → α → Prop
  | done {a : α} (h : ended a) : Rounds pass ended 0 a a
  | round {n : Nat} {a b c : α} (h : pass a b) (hr : Rounds pass ended n b c) : Rounds pass ended (n + 1) a c

theorem Rounds.le (h : Rounds pass ended n a c) {m : α → Nat} {inv : α → Prop}
    (hstep : ∀ a b, inv a → pass a b → inv b ∧ m b < m a) (ha : inv a) : n ≤ m a := by
  induction h with
  | done _ => exact Nat.zero_le _
  | round h _ ih =>
    obtain ⟨hb, hlt⟩ := hstep _ _ ha h
    have := ih hb
    omega

/-- How many spans it takes to move so many bytes, of which so many fit the first. -/
def spansFor (wanted span : Nat) : Nat := if wanted = 0 then 0 else if wanted ≤ span then 1 else 2

theorem spansFor_lt {wanted span span' : Nat} (hk : 0 < min span wanted) (hrest : wanted - min span wanted ≤ span') :
    spansFor (wanted - min span wanted) span' < spansFor wanted span := by
  unfold spansFor
  split_ifs <;> omega

theorem Rounds.le_two (h : Rounds pass ended n a c) (wanted span : α → Nat) (inv : α → Prop)
    (hstep : ∀ a b, inv a → pass a b → inv b ∧ spansFor (wanted b) (span b) < spansFor (wanted a) (span a))
    (ha : inv a) : n ≤ 2 := by
  refine Nat.le_trans (h.le hstep ha) ?_
  unfold spansFor
  split_ifs <;> omega

/-- From here the loop comes to its end, after two passes at most. Every pass leaves less to be done. -/
structure Brief (pass : α → α → Prop) (ended : α → Prop) (left : α → Nat) (a c : α) : Prop where
  ends : ∃ n, Rounds pass ended n a c
  twice : ∀ {n c}, Rounds pass ended n a c → n ≤ 2
  onward : ∀ {b c}, pass b c → left c < left b

end

namespace Ring

variable {r r' : Ring} {src rest : Bytes} {n : Nat}

theorem writeSpanLength_advanceTail (h : r.WellFormed) :
    (r.advanceTail r.writeSpanLength).writeSpanLength = r.free - r.writeSpanLength := by
  have ht := h.tail_lt
  have hl := h.len_le
  by_cases hn : r.writeSpanLength < r.free
  · have hend : r.tail + r.writeSpanLength = r.capacity := by
      simp only [writeSpanLength] at hn ⊢
      omega
    rw [advanceTail, if_pos hend]
    simp only [writeSpanLength, free, capacity] at hn hl ⊢
    omega
  · simp only [writeSpanLength, free, capacity, advanceTail] at hn ⊢
    omega

def PutPass (a b : Ring × Bytes) : Prop := a.1.putPass a.2 = some b

theorem putPass_spans (h : r.WellFormed) (hs : src.length ≤ r.free) (hp : r.putPass src = some (r', rest)) :
    (r'.WellFormed ∧ rest.length ≤ r'.free) ∧
      spansFor rest.length r'.writeSpanLength < spansFor src.length r.writeSpanLength := by
  simp only [putPass] at hp
  split at hp
  · simp at hp
  · rename_i hpos
    obtain ⟨rfl, rfl⟩ := by simpa using hp
    have hw := overwriteSpan_wellFormed h (src.take (min r.writeSpanLength src.length))
    have hspan := overwriteSpan_writeSpanLength r (src.take (min r.writeSpanLength src.length))
    have hfree := overwriteSpan_free r (src.take (min r.writeSpanLength src.length))
    generalize r.overwriteSpan (src.take (min r.writeSpanLength src.length)) = u at hw hspan hfree ⊢
    have hle : min r.writeSpanLength src.length ≤ u.writeSpanLength := by omega
    have hleft := reserve_free (reserve_eq_ok hle)
    have hsecond := writeSpanLength_advanceTail hw
    rw [List.length_drop]
    refine ⟨⟨advanceTail_wellFormed hw hle, by omega⟩, spansFor_lt (by omega) ?_⟩
    by_cases hfits : src.length ≤ r.writeSpanLength
    · omega
    · rw [Nat.min_eq_left (by omega), ← hspan, hsecond]
      omega

theorem putAll_rounds (h : r.WellFormed) (hs : src.length ≤ r.free) :
    ∃ n, Rounds PutPass (·.2 = []) n (r, src) (r.putAll src, []) := by
  induction r, src using putAll.induct with
  | case1 r src hp =>
    obtain rfl : src = [] := by
      have hz := writeSpanLength_eq_zero h
      simp only [putPass] at hp
      split at hp
      · exact List.eq_nil_of_length_eq_zero (by omega)
      · simp at hp
    rw [putAll, hp]
    exact ⟨0, .done rfl⟩
  | case2 r src r' rest hp ih =>
    obtain ⟨⟨h', hs'⟩, -⟩ := putPass_spans h hs hp
    obtain ⟨n, hn⟩ := ih h' hs'
    rw [putAll, hp]
    exact ⟨n + 1, .round hp hn⟩

theorem put_brief (h : r.WellFormed) (src : Bytes) :
    Brief PutPass (·.2 = []) (·.2.length) (r, src.take (min src.length r.free)) ((r.put src).1, []) where
  ends := putAll_rounds h (by rw [List.length_take]; omega)
  twice hr := by
    have hfits : (src.take (min src.length r.free)).length ≤ r.free := by
      rw [List.length_take]
      omega
    refine hr.le_two (·.2.length) (·.1.writeSpanLength) (fun a => a.1.WellFormed ∧ a.2.length ≤ a.1.free) ?_ ⟨h, hfits⟩
    rintro ⟨r, src⟩ ⟨r', rest⟩ ⟨h, hs⟩ hp
    exact putPass_spans h hs hp
  onward hp := putPass_length hp

def GetPass (a b : Ring × Nat × Bytes) : Prop :=
  ∃ taken, a.1.getPass a.2.1 = some (taken, b.1) ∧ b.2 = (a.2.1 - taken.length, a.2.2 ++ taken)

theorem getPass_spans {taken : Bytes} (h : r.WellFormed) (hn : n ≤ r.len) (hg : r.getPass n = some (taken, r')) :
    (r'.WellFormed ∧ n - taken.length ≤ r'.len) ∧
      spansFor (n - taken.length) r'.readSpanLength < spansFor n r.readSpanLength := by
  have hpos := (getPass_length hg).1
  simp only [getPass] at hg
  split at hg
  · simp at hg
  · obtain ⟨rfl, rfl⟩ := by simpa using hg
    have hsecond := readSpanLength_advanceHead h
    rw [List.length_take, readSpan_length, Nat.min_comm] at hpos ⊢
    refine ⟨⟨advanceHead_wellFormed h (Nat.min_le_left _ _), ?_⟩, spansFor_lt hpos ?_⟩
    · rw [advanceHead_len]
      omega
    · by_cases hfits : n ≤ r.readSpanLength
      · omega
      · rw [Nat.min_eq_left (by omega), hsecond]
        omega

theorem getAll_rounds (h : r.WellFormed) (hn : n ≤ r.len) (got : Bytes) :
    ∃ k, Rounds GetPass (·.2.1 = 0) k (r, n, got) ((r.getAll n).2, 0, got ++ (r.getAll n).1) := by
  induction r, n using getAll.induct generalizing got with
  | case1 r n hg =>
    obtain rfl : n = 0 := by
      have hz := readSpanLength_eq_zero h
      simp only [getPass] at hg
      split at hg
      · rename_i ht
        have := congrArg List.length ht
        rw [List.length_take, readSpan_length, List.length_nil] at this
        omega
      · simp at hg
    rw [getAll, hg, List.append_nil]
    exact ⟨0, .done rfl⟩
  | case2 r n taken r' hg more last hm ih =>
    obtain ⟨⟨h', hn'⟩, -⟩ := getPass_spans h hn hg
    obtain ⟨k, hk⟩ := ih h' hn' (got ++ taken)
    rw [List.append_assoc] at hk
    rw [getAll, hg]
    exact ⟨k + 1, .round ⟨taken, hg, rfl⟩ hk⟩

theorem get_brief (h : r.WellFormed) (n : Nat) :
    Brief GetPass (·.2.1 = 0) (·.2.1) (r, min n r.len, []) ((r.get n).2, 0, (r.get n).1) where
  ends := getAll_rounds h (Nat.min_le_right _ _) []
  twice hr := by
    refine hr.le_two (·.2.1) (·.1.readSpanLength) (fun a => a.1.WellFormed ∧ a.2.1 ≤ a.1.len) ?_
      ⟨h, Nat.min_le_right _ _⟩
    rintro ⟨r, n, got⟩ ⟨r', rest⟩ ⟨h, hn⟩ ⟨taken, hg, rfl⟩
    exact getPass_spans h hn hg
  onward := by
    rintro ⟨r, n, got⟩ ⟨r', rest⟩ ⟨taken, hg, rfl⟩
    obtain ⟨hpos, hle⟩ := getPass_length hg
    exact Nat.sub_lt_self hpos hle

end Ring

end IrcLink
