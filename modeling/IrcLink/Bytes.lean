/-!
Byte strings and the few questions asked of them: where a byte first stands, what lies on either side of it,
and which bytes a text is sent as.
-/

namespace IrcLink

abbrev Bytes := List UInt8

namespace Bytes

def lf : UInt8 := 10
def cr : UInt8 := 13
def space : UInt8 := 32
def colon : UInt8 := 58

def ofText (s : String) : Bytes := s.toList.flatMap String.utf8EncodeChar

def splitAt? (b : UInt8) (s : Bytes) : Option (Bytes × Bytes) :=
  match s.dropWhile (· != b) with
  | [] => none
  | _ :: after => some (s.takeWhile (· != b), after)

theorem splitAt?_nil (b : UInt8) : splitAt? b [] = none := rfl

theorem splitAt?_cons (b c : UInt8) (rest : Bytes) :
    splitAt? b (c :: rest) =
      if c = b then some ([], rest) else (splitAt? b rest).map fun p => (c :: p.1, p.2) := by
  by_cases h : c = b
  · simp [splitAt?, h]
  · simp only [splitAt?, List.dropWhile_cons, List.takeWhile_cons, bne_iff_ne, ne_eq, h, not_false_eq_true,
      if_true, if_false]
    split <;> rfl

theorem splitAt?_eq_some {b : UInt8} {s before after : Bytes} (h : splitAt? b s = some (before, after)) :
    s = before ++ b :: after ∧ b ∉ before := by
  induction s generalizing before with
  | nil => simp [splitAt?_nil] at h
  | cons c rest ih =>
    rw [splitAt?_cons] at h
    split at h
    · simp_all
    · rename_i hc
      obtain ⟨p, hp, hq⟩ := Option.map_eq_some_iff.mp h
      obtain ⟨rfl, rfl⟩ := by simpa using hq
      have := ih hp
      simp_all [eq_comm]

theorem splitAt?_eq_none {b : UInt8} {s : Bytes} : splitAt? b s = none ↔ b ∉ s := by
  induction s with
  | nil => simp [splitAt?_nil]
  | cons c rest ih =>
    rw [splitAt?_cons]
    by_cases h : c = b
    · simp [h]
    · simp [h, ih, show b ≠ c from fun e => h e.symm]

/-- What follows the first occurrence of `b` directly before `c`. -/
def afterPair? (b c : UInt8) : Bytes → Option Bytes
  | x :: y :: rest => if x = b ∧ y = c then some rest else afterPair? b c (y :: rest)
  | _ => none

end Bytes

end IrcLink
