import IrcLink.Text.Utf8
import Mathlib.Data.List.Basic

/-!
UTF-8 is read back as it was written: the first character of an encoded text is found at its front, whatever follows.
A byte below 0x80 in an encoded text is always a character of its own.
-/

namespace IrcLink.Utf8

open Bytes

variable {x y z w : Nat}

theorem toNat_ofNat {n : Nat} (h : n < 256) : (UInt8.ofNat n).toNat = n := UInt8.toNat_ofNat_of_lt' h

theorem isContinuation_ofNat (hx : x < 64) : isContinuation (UInt8.ofNat (x + 128)) = true := by
  have hn : (UInt8.ofNat (x + 128)).toNat = x + 128 := toNat_ofNat (by omega)
  rw [isContinuation, Bool.and_eq_true, decide_eq_true_iff, decide_eq_true_iff, UInt8.le_iff_toNat_le,
    UInt8.le_iff_toNat_le, hn]
  constructor
  · exact Nat.le_add_left 128 x
  · change x + 128 ≤ 191
    omega

theorem low_ofNat (k bits : Nat) (hk : k % Nat.pow 2 bits = 0) (hx : x < Nat.pow 2 bits) (hlt : x + k < 256) :
    low (UInt8.ofNat (x + k)) bits = x := by
  rw [low, toNat_ofNat hlt, Nat.add_mod, hk, Nat.add_zero, Nat.mod_mod, Nat.mod_eq_of_lt hx]

theorem width_ofNat {n : Nat} (h : n < 256) :
    width (UInt8.ofNat n) =
      if n < 0x80 then 1
      else if 0xC2 ≤ n ∧ n ≤ 0xDF then 2
      else if 0xE0 ≤ n ∧ n ≤ 0xEF then 3
      else if 0xF0 ≤ n ∧ n ≤ 0xF4 then 4
      else 0 := by
  simp only [width, Bool.and_eq_true, decide_eq_true_iff, UInt8.le_iff_toNat_le, UInt8.lt_iff_toNat_lt, toNat_ofNat h]
  rfl

theorem isSecond_ofNat {n m : Nat} (hn : n < 256) (hm : m < 256) :
    isSecond (UInt8.ofNat n) (UInt8.ofNat m) = true ↔
      if n = 0xE0 then 0xA0 ≤ m ∧ m ≤ 0xBF
      else if n = 0xED then 0x80 ≤ m ∧ m ≤ 0x9F
      else if n = 0xF0 then 0x90 ≤ m ∧ m ≤ 0xBF
      else if n = 0xF4 then 0x80 ≤ m ∧ m ≤ 0x8F
      else 0x80 ≤ m ∧ m ≤ 0xBF := by
  simp only [isSecond, isContinuation, ← UInt8.toNat_inj, UInt8.le_iff_toNat_le, toNat_ofNat hn, toNat_ofNat hm]
  change (if n = 0xE0 then _ else if n = 0xED then _ else if n = 0xF0 then _ else if n = 0xF4 then _ else _) = true ↔
    _
  split_ifs <;> rw [Bool.and_eq_true, decide_eq_true_iff, decide_eq_true_iff] <;> rfl

theorem first_one (hx : x < 0x80) (tail : Bytes) : first (UInt8.ofNat x) tail = (some (Char.ofNat x), 1) := by
  have hwidth : width (UInt8.ofNat x) = 1 := by rw [width_ofNat (by omega), if_pos hx]
  rw [first.eq_1 _ _ hwidth, toNat_ofNat (by omega)]

theorem first_two (hx : 2 ≤ x) (hx' : x < 32) (hy : y < 64) (tail : Bytes) :
    first (UInt8.ofNat (x + 192)) (UInt8.ofNat (y + 128) :: tail) = (some (Char.ofNat (x * 64 + y)), 2) := by
  have hwidth : width (UInt8.ofNat (x + 192)) = 2 := by
    rw [width_ofNat (by omega), if_neg (by omega), if_pos (by omega)]
  have hsecond : isSecond (UInt8.ofNat (x + 192)) (UInt8.ofNat (y + 128)) = true := by
    rw [isSecond_ofNat (by omega) (by omega)]
    split_ifs <;> omega
  rw [first.eq_2 _ _ _ hwidth, if_pos hsecond, low_ofNat 192 5 rfl hx' (by omega), low_ofNat 128 6 rfl hy (by omega)]

theorem first_three (hx : x < 16) (hy : y < 64) (hz : z < 64) (hlong : 0x800 ≤ x * 4096 + y * 64 + z)
    (hscalar : x * 4096 + y * 64 + z < 0xD800 ∨ 0xDFFF < x * 4096 + y * 64 + z) (tail : Bytes) :
    first (UInt8.ofNat (x + 224)) (UInt8.ofNat (y + 128) :: UInt8.ofNat (z + 128) :: tail) =
      (some (Char.ofNat (x * 4096 + y * 64 + z)), 3) := by
  have hwidth : width (UInt8.ofNat (x + 224)) = 3 := by
    rw [width_ofNat (by omega), if_neg (by omega), if_neg (by omega), if_pos (by omega)]
  have hsecond : isSecond (UInt8.ofNat (x + 224)) (UInt8.ofNat (y + 128)) = true := by
    rw [isSecond_ofNat (by omega) (by omega)]
    split_ifs <;> omega
  rw [first.eq_3 _ _ _ _ hwidth, if_pos hsecond, if_pos (isContinuation_ofNat hz), low_ofNat 224 4 rfl hx (by omega),
    low_ofNat 128 6 rfl hy (by omega), low_ofNat 128 6 rfl hz (by omega)]

theorem first_four (hx : x < 8) (hy : y < 64) (hz : z < 64) (hw : w < 64)
    (hlong : 0x10000 ≤ x * 262144 + y * 4096 + z * 64 + w) (hscalar : x * 262144 + y * 4096 + z * 64 + w < 0x110000)
    (tail : Bytes) :
    first (UInt8.ofNat (x + 240))
        (UInt8.ofNat (y + 128) :: UInt8.ofNat (z + 128) :: UInt8.ofNat (w + 128) :: tail) =
      (some (Char.ofNat (x * 262144 + y * 4096 + z * 64 + w)), 4) := by
  have hwidth : width (UInt8.ofNat (x + 240)) = 4 := by
    rw [width_ofNat (by omega), if_neg (by omega), if_neg (by omega), if_neg (by omega), if_pos (by omega)]
  have hsecond : isSecond (UInt8.ofNat (x + 240)) (UInt8.ofNat (y + 128)) = true := by
    rw [isSecond_ofNat (by omega) (by omega)]
    split_ifs <;> omega
  rw [first.eq_5 _ _ _ _ _ hwidth, if_pos hsecond, if_pos (isContinuation_ofNat hz), if_pos (isContinuation_ofNat hw),
    low_ofNat 240 3 rfl hx (by omega), low_ofNat 128 6 rfl hy (by omega), low_ofNat 128 6 rfl hz (by omega),
    low_ofNat 128 6 rfl hw (by omega)]

theorem toNat_valid (c : Char) : c.toNat < 0xD800 ∨ 0xDFFF < c.toNat ∧ c.toNat < 0x110000 := c.valid

theorem encodeChar_eq (c : Char) :
    String.utf8EncodeChar c =
      if c.toNat ≤ 127 then [UInt8.ofNat c.toNat]
      else if c.toNat ≤ 2047 then [UInt8.ofNat (c.toNat / 64 % 32 + 192), UInt8.ofNat (c.toNat % 64 + 128)]
      else if c.toNat ≤ 65535 then
        [UInt8.ofNat (c.toNat / 4096 % 16 + 224), UInt8.ofNat (c.toNat / 64 % 64 + 128),
          UInt8.ofNat (c.toNat % 64 + 128)]
      else
        [UInt8.ofNat (c.toNat / 262144 % 8 + 240), UInt8.ofNat (c.toNat / 4096 % 64 + 128),
          UInt8.ofNat (c.toNat / 64 % 64 + 128), UInt8.ofNat (c.toNat % 64 + 128)] := rfl

theorem first_encodeChar (c : Char) (tail : Bytes) :
    ∃ b rest, String.utf8EncodeChar c = b :: rest ∧ first b (rest ++ tail) = (some c, rest.length + 1) := by
  have hvalid := toNat_valid c
  have hof := Char.ofNat_toNat c
  rw [encodeChar_eq]
  generalize c.toNat = v at hvalid hof ⊢
  split_ifs with h₁ h₂ h₃
  · refine ⟨_, _, rfl, ?_⟩
    rw [first_one (by omega), hof]
    rfl
  · refine ⟨_, _, rfl, ?_⟩
    have hv : v / 64 % 32 * 64 + v % 64 = v := by omega
    rw [List.cons_append, first_two (by omega) (by omega) (by omega), hv, hof]
    rfl
  · refine ⟨_, _, rfl, ?_⟩
    have hv : v / 4096 % 16 * 4096 + v / 64 % 64 * 64 + v % 64 = v := by omega
    rw [List.cons_append, List.cons_append, first_three (by omega) (by omega) (by omega) (by omega) (by omega), hv, hof]
    rfl
  · refine ⟨_, _, rfl, ?_⟩
    have hv : v / 262144 % 8 * 262144 + v / 4096 % 64 * 4096 + v / 64 % 64 * 64 + v % 64 = v := by omega
    rw [List.cons_append, List.cons_append, List.cons_append,
      first_four (by omega) (by omega) (by omega) (by omega) (by omega) (by omega), hv, hof]
    rfl

theorem scan_encodeChar (c : Char) (tail : Bytes) : scan (String.utf8EncodeChar c ++ tail) = some c :: scan tail := by
  obtain ⟨b, rest, hc, hf⟩ := first_encodeChar c tail
  rw [hc, List.cons_append, scan, hf, Nat.add_sub_cancel, List.drop_left]

theorem scan_ofText (s : String) : scan (ofText s) = s.toList.map some := by
  unfold ofText
  induction s.toList with
  | nil => rw [List.flatMap_nil, scan, List.map_nil]
  | cons c cs ih => rw [List.flatMap_cons, scan_encodeChar, ih, List.map_cons]

theorem decode?_ofText (s : String) : decode? (ofText s) = some s := by
  have hm : ∀ cs : List Char, (cs.map some).mapM id = some cs := by
    intro cs
    induction cs with
    | nil => rfl
    | cons c cs ih => simp [ih]
  rw [decode?, scan_ofText, hm, Option.map_some, String.ofList_toList]

theorem mem_encodeChar {b : UInt8} {c : Char} (h : b ∈ String.utf8EncodeChar c) :
    b.toNat = c.toNat ∨ 0x80 ≤ b.toNat := by
  rw [encodeChar_eq] at h
  split_ifs at h
  · obtain rfl := List.mem_singleton.mp h
    exact .inl (toNat_ofNat (by omega))
  all_goals
    simp only [List.mem_cons, List.not_mem_nil, or_false] at h
    right
  · obtain rfl | rfl := h <;> rw [toNat_ofNat (by omega)] <;> omega
  · obtain rfl | rfl | rfl := h <;> rw [toNat_ofNat (by omega)] <;> omega
  · obtain rfl | rfl | rfl | rfl := h <;> rw [toNat_ofNat (by omega)] <;> omega

theorem exists_char_of_mem {b : UInt8} {s : String} (h : b ∈ ofText s) (hb : b.toNat < 0x80) :
    ∃ c ∈ s.toList, c.toNat = b.toNat := by
  obtain ⟨c, hc, hm⟩ := List.mem_flatMap.mp h
  obtain he | hge := mem_encodeChar hm
  · exact ⟨c, hc, he.symm⟩
  · omega

theorem notMem_ofText {b : UInt8} {c : Char} {s : String} (hc : c ∉ s.toList) (hcb : c.toNat = b.toNat)
    (hb : b.toNat < 0x80) : b ∉ ofText s := by
  intro h
  obtain ⟨d, hd, hdb⟩ := exists_char_of_mem h hb
  have hdc : d = c := by rw [← Char.ofNat_toNat d, ← Char.ofNat_toNat c, hdb, hcb]
  exact hc (hdc ▸ hd)

end IrcLink.Utf8
