import IrcLink.Proofs.Message.Params
import Mathlib.Data.List.Basic
import Mathlib.Data.List.TakeWhile

/-!
The two questions that are asked of parameters, and the one way of splitting them. The parameter behind a colon is the
trailing one of the split, whatever stands before it. The first parameter is that of the split if only spaces are skipped on the
way to it; but `firstParam` also skips tabs, form feeds and CRs, which the split takes for the beginning of a parameter.
-/

namespace IrcLink

open Bytes

namespace Bytes

variable {b c x : UInt8} {s r : Bytes}

theorem afterPair?_cons_of_ne (h : x ≠ b) (s : Bytes) : afterPair? b c (x :: s) = afterPair? b c s := by
  cases s with
  | nil => rfl
  | cons y rest => rw [afterPair?, if_neg fun hb => h hb.1]

theorem afterPair?_cons_of_head? (h : s.head? ≠ some c) : afterPair? b c (x :: s) = afterPair? b c s := by
  cases s with
  | nil => rfl
  | cons y rest =>
    rw [List.head?_cons, ne_eq, Option.some.injEq] at h
    rw [afterPair?, if_neg fun hb => h hb.2]

theorem afterPair?_append (h : b ∉ s) (rest : Bytes) : afterPair? b c (s ++ rest) = afterPair? b c rest := by
  induction s with
  | nil => rfl
  | cons x s ih =>
    obtain ⟨hx, hs⟩ := not_or.mp (mt List.mem_cons.mpr h)
    rw [List.cons_append, afterPair?_cons_of_ne (Ne.symm hx), ih hs]

theorem afterPair?_of_notMem (h : b ∉ s) : afterPair? b c s = none := by
  have hs := afterPair?_append (c := c) h []
  rwa [List.append_nil] at hs

theorem afterPair?_at_first (hbc : b ≠ c) (h : c ∉ s) (hx : x ≠ c) (rest : Bytes) :
    afterPair? b c (s ++ x :: c :: rest) = if x = b then some rest else afterPair? b c rest := by
  induction s with
  | nil =>
    rw [List.nil_append, afterPair?]
    by_cases hb : x = b
    · rw [if_pos ⟨hb, rfl⟩, if_pos hb]
    · rw [if_neg fun hc => hb hc.1, if_neg hb, afterPair?_cons_of_ne (Ne.symm hbc)]
  | cons y s ih =>
    obtain ⟨-, hs⟩ := not_or.mp (mt List.mem_cons.mpr h)
    have hhead : (s ++ x :: c :: rest).head? ≠ some c := by
      cases s with
      | nil => simpa using hx
      | cons z s => simpa [eq_comm] using (not_or.mp (mt List.mem_cons.mpr hs)).1
    rw [List.cons_append, afterPair?_cons_of_head? hhead, ih hs]

theorem length_afterPair? (h : afterPair? b c s = some r) : r.length + 2 ≤ s.length := by
  induction s with
  | nil => simp [afterPair?] at h
  | cons x s ih =>
    cases s with
    | nil => simp [afterPair?] at h
    | cons y s =>
      rw [afterPair?] at h
      split at h
      · obtain rfl := Option.some.inj h
        simp
      · have hle := ih h
        rw [List.length_cons] at hle ⊢
        exact Nat.le_succ_of_le hle

end Bytes

namespace Message

namespace Params

variable {b : UInt8} {rest : Bytes}

theorem split_space (s : Bytes) : split (space :: s) = split s := by rw [split, if_pos rfl]

theorem split_dropWhile_space (s : Bytes) : split (s.dropWhile (· = space)) = split s := by
  induction s with
  | nil => rfl
  | cons b s ih =>
    rw [List.dropWhile_cons]
    split
    · rename_i hb
      rw [of_decide_eq_true hb, split_space, ih]
    · rfl

/-- In front of the parameters a space changes nothing, and with it each parameter stands behind one. -/
theorem afterPair?_space (s : Bytes) : afterPair? space colon (space :: s) = (split s).trailing := by
  induction s using split.induct with
  | case1 =>
    rw [split_nil]
    rfl
  | case2 rest ih => rw [split_space, ← ih, afterPair?_cons_of_head? (by simp [space, colon])]
  | case3 rest => rw [split_colon, afterPair?, if_pos ⟨rfl, rfl⟩]
  | case4 b rest hspace hcolon hs =>
    rw [split, if_neg hspace, if_neg hcolon, hs, afterPair?_cons_of_head? (by simpa using hcolon),
      afterPair?_of_notMem (splitAt?_eq_none.mp hs)]
  | case5 b rest hspace hcolon w more hs ih =>
    obtain ⟨heq, hw⟩ := splitAt?_eq_some hs
    rw [split, if_neg hspace, if_neg hcolon, hs, afterPair?_cons_of_head? (by simpa using hcolon), heq,
      afterPair?_append hw, ih]
    rfl

theorem takeWhile_append_of_notMem {w : Bytes} (h : space ∉ w) (rest : Bytes) :
    (w ++ rest).takeWhile (· ≠ space) = w ++ rest.takeWhile (· ≠ space) := by
  apply List.takeWhile_append_of_pos
  intro c hc
  exact decide_eq_true fun he => h (he ▸ hc)

theorem head?_split (hspace : b ≠ space) (hcolon : b ≠ colon) :
    (split (b :: rest)).all.head? = some (b :: rest.takeWhile (· ≠ space)) := by
  rw [← List.takeWhile_cons_of_pos (p := (· ≠ space)) (decide_eq_true hspace), split, if_neg hspace, if_neg hcolon]
  cases hs : splitAt? space (b :: rest) with
  | none =>
    have hw := takeWhile_append_of_notMem (splitAt?_eq_none.mp hs) []
    rw [List.takeWhile_nil, List.append_nil] at hw
    rw [hw]
    rfl
  | some p =>
    obtain ⟨w, more⟩ := p
    obtain ⟨heq, hw⟩ := splitAt?_eq_some hs
    rw [heq, takeWhile_append_of_notMem hw, List.takeWhile_cons_of_neg (by simp), List.append_nil]
    rfl

end Params

open Params

theorem trailing_eq_split (m : Message) : m.trailing = (split m.params).trailing := by
  unfold trailing
  cases m.params with
  | nil =>
    rw [split_nil]
  | cons b rest =>
    dsimp only
    split
    · rename_i hb
      rw [hb, split_colon]
    · rename_i hb
      rw [← afterPair?_space, afterPair?_cons_of_head? (s := b :: rest) (by simpa using hb)]

theorem isBlank_of_dropWhile {s rest : Bytes} {b : UInt8} (h : s.dropWhile isBlank = b :: rest) :
    isBlank b = false := by
  have hhead := List.head?_dropWhile_not isBlank s
  simpa [h] using hhead

theorem firstParam_eq_split (m : Message) : m.firstParam = (split (m.params.dropWhile isBlank)).all.head? := by
  unfold firstParam
  cases hd : m.params.dropWhile isBlank with
  | nil =>
    rw [split_nil]
    rfl
  | cons b rest =>
    have hblank := isBlank_of_dropWhile hd
    have hspace : b ≠ space := by
      rintro rfl
      exact absurd hblank (by decide)
    dsimp only
    split
    · rename_i hcolon
      rw [hcolon, split_colon]
      rfl
    · rename_i hcolon
      rw [head?_split hspace hcolon, List.takeWhile_cons, if_pos (decide_eq_true hspace)]

theorem firstParam_of_colon {m : Message} {rest : Bytes} (h : m.params.dropWhile isBlank = colon :: rest) :
    m.firstParam = some rest := by
  rw [firstParam_eq_split, h, split_colon]
  rfl

theorem dropWhile_isBlank_dropWhile_space (s : Bytes) : (s.dropWhile (· = space)).dropWhile isBlank = s.dropWhile isBlank := by
  induction s with
  | nil => rfl
  | cons b s ih =>
    by_cases hb : b = space
    · subst hb
      rw [List.dropWhile_cons_of_pos (by simp), ih, List.dropWhile_cons_of_pos (by decide)]
    · rw [List.dropWhile_cons_of_neg (by simpa using hb)]

theorem exists_colon_of_isBlank {b : UInt8} {rest : Bytes} (hb : isBlank b = true) (hspace : b ≠ space)
    (h : (split ((b :: rest).dropWhile isBlank)).all.head? = (split (b :: rest)).all.head?) :
    ∃ w, (b :: rest).dropWhile isBlank = colon :: w ∧ (split (b :: rest)).all.head? = some w := by
  have hcolon : b ≠ colon := by
    rintro rfl
    exact absurd hb (by decide)
  rw [← h]
  rw [head?_split hspace hcolon] at h
  cases hd : (b :: rest).dropWhile isBlank with
  | nil =>
    rw [hd, split_nil] at h
    exact absurd h nofun
  | cons c more =>
    have hc := isBlank_of_dropWhile hd
    by_cases hmark : c = colon
    · subst hmark
      exact ⟨more, rfl, by rw [split_colon]; rfl⟩
    · have hne : c ≠ space := by
        rintro rfl
        exact absurd hc (by decide)
      rw [hd, head?_split hne hmark] at h
      obtain rfl := (List.cons.inj (Option.some.inj h)).1
      rw [hc] at hb
      exact absurd hb nofun

/-- If the split begins with another blank, `firstParam` agrees with it only if the same text stands behind a colon. -/
theorem firstParam_eq_iff (m : Message) :
    m.firstParam = (split m.params).all.head? ↔
      m.params.dropWhile isBlank = m.params.dropWhile (· = space) ∨
        ∃ w, m.params.dropWhile isBlank = colon :: w ∧ (split m.params).all.head? = some w := by
  constructor
  · intro h
    rw [firstParam_eq_split, ← dropWhile_isBlank_dropWhile_space, ← split_dropWhile_space m.params] at h
    rw [← dropWhile_isBlank_dropWhile_space, ← split_dropWhile_space m.params]
    cases hd : m.params.dropWhile (· = space) with
    | nil => exact .inl rfl
    | cons b rest =>
      have hspace : b ≠ space := by simpa [hd] using List.head?_dropWhile_not (· = space) m.params
      by_cases hb : isBlank b = true
      · rw [hd] at h
        exact .inr (exists_colon_of_isBlank hb hspace h)
      · exact .inl (List.dropWhile_cons_of_neg hb)
  · rintro (h | ⟨w, h, hw⟩)
    · rw [firstParam_eq_split, h, split_dropWhile_space]
    · rw [firstParam_of_colon h, hw]

theorem trailing_eq_firstParam_iff {m : Message} {rest : Bytes} (h : m.params.dropWhile isBlank = colon :: rest) :
    m.trailing = m.firstParam ↔ ∀ b ∈ (m.params.takeWhile isBlank).getLast?, b = space := by
  have hblank : ∀ b ∈ m.params.takeWhile isBlank, b ≠ colon := by
    rintro b hb rfl
    exact absurd (List.mem_takeWhile_imp hb) (by decide)
  have heq : m.params = m.params.takeWhile isBlank ++ colon :: rest := h ▸ List.takeWhile_append_dropWhile.symm
  rw [trailing_eq_split, ← afterPair?_space, firstParam_of_colon h]
  generalize m.params.takeWhile isBlank = blanks at hblank heq
  rw [heq]
  obtain rfl | ⟨before, b, rfl⟩ := List.eq_nil_or_concat' blanks
  · rw [List.nil_append, afterPair?, if_pos ⟨rfl, rfl⟩]
    exact iff_of_true rfl nofun
  · have hbefore : colon ∉ space :: before := by
      rw [List.mem_cons]
      rintro (hs | hm)
      · exact absurd hs (by decide)
      · exact hblank colon (by simp [hm]) rfl
    have hfirst := afterPair?_at_first (b := space) (by decide) hbefore (hblank b (by simp)) rest
    have hlast : space :: ((before ++ [b]) ++ colon :: rest) = (space :: before) ++ b :: colon :: rest := by simp
    rw [hlast, hfirst, List.getLast?_concat]
    split
    · rename_i hs
      exact iff_of_true rfl fun c hc => (Option.some.inj hc) ▸ hs
    · rename_i hs
      refine iff_of_false ?_ fun hall => hs (hall b rfl)
      intro hr
      have hle := length_afterPair? hr
      omega

theorem accessors_follow_the_split (m : Message) :
    m.trailing = (split m.params).trailing ∧
    -- the first parameter is looked for behind all blanks
    m.firstParam = (split (m.params.dropWhile isBlank)).all.head? ∧
    -- that is the first of the split if they are spaces, and otherwise by chance only
    (m.firstParam = (split m.params).all.head? ↔
      m.params.dropWhile isBlank = m.params.dropWhile (· = space) ∨
        ∃ w, m.params.dropWhile isBlank = colon :: w ∧ (split m.params).all.head? = some w) ∧
    -- and the trailing one too, if it stands there behind a colon, and the colon in front or behind a space
    ∀ rest, m.params.dropWhile isBlank = colon :: rest → m.firstParam = some rest ∧
      (m.trailing = m.firstParam ↔ ∀ b ∈ (m.params.takeWhile isBlank).getLast?, b = space) :=
  ⟨trailing_eq_split m, firstParam_eq_split m, firstParam_eq_iff m, fun _ h =>
    ⟨firstParam_of_colon h, trailing_eq_firstParam_iff h⟩⟩

def tabbed : Message := ⟨none, ofText "PING", ofText "\t:x"⟩

theorem accessors_follow_the_split_of_tabbed :
    tabbed.params.dropWhile isBlank = colon :: ofText "x" ∧ tabbed.firstParam = some (ofText "x") ∧
      tabbed.trailing ≠ tabbed.firstParam := by
  have hcolon : tabbed.params.dropWhile isBlank = colon :: ofText "x" := by decide
  obtain ⟨-, -, -, hmarked⟩ := accessors_follow_the_split tabbed
  obtain ⟨hfirst, hagree⟩ := hmarked _ hcolon
  refine ⟨hcolon, hfirst, fun h => ?_⟩
  exact absurd (hagree.mp h 9 (by decide)) (by decide)

theorem tab_and_colon_are_lost :
    Message.parse (ofText "PING \t:x\r\n") = .ok (tabbed, 10) ∧ split tabbed.params = ⟨[ofText "\t:x"], none⟩ ∧
      tabbed.trailing = none ∧ tabbed.firstParam = some (ofText "x") := by
  have hword : Word (ofText "\t:x") := ⟨by decide, by decide, by decide⟩
  exact ⟨by decide +kernel, split_word hword, by decide, by decide⟩

end Message

end IrcLink
