import IrcLink.Bytes

/-!
Reading UTF-8. `first` looks at the front of a byte string and finds one character, or the longest run of bytes that
starts a character but is not one; reading a text either refuses such a run or shows one U+FFFD for it.
-/

namespace IrcLink.Utf8

def isContinuation (b : UInt8) : Bool := 0x80 ≤ b && b ≤ 0xBF

/-- The second bytes that may follow a first byte of two, three or four; overlong forms, surrogates and what lies
beyond the last code point are excluded here. -/
def isSecond (first second : UInt8) : Bool :=
  if first = 0xE0 then 0xA0 ≤ second && second ≤ 0xBF
  else if first = 0xED then 0x80 ≤ second && second ≤ 0x9F
  else if first = 0xF0 then 0x90 ≤ second && second ≤ 0xBF
  else if first = 0xF4 then 0x80 ≤ second && second ≤ 0x8F
  else isContinuation second

def width (b : UInt8) : Nat :=
  if b < 0x80 then 1
  else if 0xC2 ≤ b && b ≤ 0xDF then 2
  else if 0xE0 ≤ b && b ≤ 0xEF then 3
  else if 0xF0 ≤ b && b ≤ 0xF4 then 4
  else 0

def low (b : UInt8) (bits : Nat) : Nat := b.toNat % Nat.pow 2 bits

/-- The first character, if there is one, and how many bytes it or the run in its place takes up. -/
def first (b : UInt8) (rest : Bytes) : Option Char × Nat :=
  match width b, rest with
  | 1, _ => (some (Char.ofNat b.toNat), 1)
  | 2, b₂ :: _ =>
    if isSecond b b₂ then (some (Char.ofNat (low b 5 * Nat.pow 2 6 + low b₂ 6)), 2) else (none, 1)
  | 3, b₂ :: rest =>
    if isSecond b b₂ then
      match rest with
      | b₃ :: _ =>
        if isContinuation b₃ then (some (Char.ofNat (low b 4 * Nat.pow 2 12 + low b₂ 6 * Nat.pow 2 6 + low b₃ 6)), 3)
        else (none, 2)
      | [] => (none, 2)
    else (none, 1)
  | 4, b₂ :: rest =>
    if isSecond b b₂ then
      match rest with
      | b₃ :: rest =>
        if isContinuation b₃ then
          match rest with
          | b₄ :: _ =>
            if isContinuation b₄ then
              (some (Char.ofNat (low b 3 * Nat.pow 2 18 + low b₂ 6 * Nat.pow 2 12 + low b₃ 6 * Nat.pow 2 6 + low b₄ 6)), 4)
            else (none, 3)
          | [] => (none, 3)
        else (none, 2)
      | [] => (none, 2)
    else (none, 1)
  | _, _ => (none, 1)

def scan : Bytes → List (Option Char)
  | [] => []
  | b :: rest => (first b rest).1 :: scan (rest.drop ((first b rest).2 - 1))
termination_by s => s.length
decreasing_by simp only [List.length_drop, List.length_cons]; omega

def decode? (s : Bytes) : Option String := ((scan s).mapM id).map String.ofList

def decodeLossy (s : Bytes) : String := String.ofList ((scan s).map (·.getD '\uFFFD'))

end IrcLink.Utf8
