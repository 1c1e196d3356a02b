/-!
Readers take something from the front of a text and hand on the rest. What repeats takes at least one character each
time, so there is never more of it than the text has characters.
-/

namespace IrcLink.Toml

abbrev Reader (α : Type) := List Char → Option (α × List Char)

namespace Reader

variable {α : Type}

def literal : List Char → Reader Unit
  | [], s => some ((), s)
  | c :: cs, d :: s => if c = d then literal cs s else none
  | _ :: _, [] => none

/-- Items one after the other, at most one for each element of `bound`. -/
def repeated (item : Reader α) : List Char → List Char → List α × List Char
  | [], s => ([], s)
  | _ :: bound, s =>
    match item s with
    | none => ([], s)
    | some (a, rest) =>
      let (as, last) := repeated item bound rest
      (a :: as, last)

def many (item : Reader α) (s : List Char) : List α × List Char := repeated item s s

def separated (separator : Reader Unit) (item : Reader α) : Reader (List α) := fun s => do
  let (a, rest) ← item s
  let (as, rest) := many (fun s => do let ((), s) ← separator s; item s) rest
  return (a :: as, rest)

def some1 (p : Char → Bool) : Reader (List Char) := fun s =>
  match s.takeWhile p with
  | [] => none
  | cs => some (cs, s.dropWhile p)

end Reader

def isBlank (c : Char) : Bool := c = ' ' || c = '\t'

def skipBlanks (s : List Char) : List Char := s.dropWhile isBlank

theorem skipBlanks_length_le (s : List Char) : (skipBlanks s).length ≤ s.length :=
  (List.dropWhile_sublist isBlank).length_le

/-- A line ends in LF or in CR LF. Both are read as LF, and a CR that is left over ends nothing. -/
def unifyLineEnds : List Char → List Char
  | '\r' :: '\n' :: rest => '\n' :: unifyLineEnds rest
  | c :: rest => c :: unifyLineEnds rest
  | [] => []

def isVisible (c : Char) : Bool := c = '\t' || (' ' ≤ c && c ≠ '\x7f')

def skipComment : List Char → List Char
  | '#' :: rest => rest.dropWhile isVisible
  | s => s

theorem skipComment_length_le (s : List Char) : (skipComment s).length ≤ s.length := by
  unfold skipComment
  split
  · have := (List.dropWhile_sublist isVisible (l := ‹List Char›)).length_le
    simp only [List.length_cons]; omega
  · exact Nat.le_refl _

def skipLines (s : List Char) : List Char :=
  match _h : skipComment (skipBlanks s) with
  | '\n' :: rest => skipLines rest
  | t => t
termination_by s.length
decreasing_by
  have h₁ := skipComment_length_le (skipBlanks s)
  have h₂ := skipBlanks_length_le s
  simp only [_h, List.length_cons] at h₁
  omega

def endLine? (s : List Char) : Option (List Char) :=
  match skipComment (skipBlanks s) with
  | [] => some []
  | '\n' :: rest => some rest
  | _ => none

end IrcLink.Toml
