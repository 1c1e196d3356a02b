import IrcLink.Toml.Reader

/-!
Texts in a document. Double quotes allow escapes, single quotes do not; three quotes allow line ends, and one right
after the opening quotes is dropped. Line ends inside a text are read as LF. The reader of each form starts after the
opening quotes.
-/

namespace IrcLink.Toml.Text

def hexValue (c : Char) : Option Nat :=
  if '0' ≤ c ∧ c ≤ '9' then some (c.toNat - 48)
  else if 'a' ≤ c ∧ c ≤ 'f' then some (c.toNat - 87)
  else if 'A' ≤ c ∧ c ≤ 'F' then some (c.toNat - 55)
  else none

def codePoint (digits : List Char) : Option Char := do
  let n ← digits.foldlM (fun n c => (hexValue c).map (16 * n + ·)) 0
  if n.isValidChar then some (Char.ofNat n) else none

def escaped? : Reader Char
  | 'b' :: rest => some ('\x08', rest)
  | 't' :: rest => some ('\t', rest)
  | 'n' :: rest => some ('\n', rest)
  | 'f' :: rest => some ('\x0c', rest)
  | 'r' :: rest => some ('\r', rest)
  | '\x22' :: rest => some ('\x22', rest)
  | '\x5c' :: rest => some ('\x5c', rest)
  | 'u' :: rest => if (rest.take 4).length = 4 then (codePoint (rest.take 4)).map (·, rest.drop 4) else none
  | 'U' :: rest => if (rest.take 8).length = 8 then (codePoint (rest.take 8)).map (·, rest.drop 8) else none
  | _ => none

theorem escaped?_length {s rest : List Char} {c : Char} (h : escaped? s = some (c, rest)) :
    rest.length < s.length := by
  unfold escaped? at h
  split at h <;> simp_all <;> grind

def basic (s : List Char) : Option (List Char × List Char) :=
  match s with
  | [] => none
  | '\x22' :: rest => some ([], rest)
  | '\x5c' :: rest =>
    match _h : escaped? rest with
    | none => none
    | some (c, rest) => (basic rest).map fun (cs, rest) => (c :: cs, rest)
  | c :: rest => if isVisible c then (basic rest).map fun (cs, rest) => (c :: cs, rest) else none
termination_by s.length
decreasing_by
  · have := escaped?_length _h; simp only [List.length_cons]; omega
  · simp

def raw : List Char → Option (List Char × List Char)
  | [] => none
  | '\x27' :: rest => some ([], rest)
  | c :: rest => if isVisible c then (raw rest).map fun (cs, rest) => (c :: cs, rest) else none

/-- After three quotes up to two more belong to the text. -/
def closing (quote : Char) (s : List Char) : List Char × List Char :=
  let extra := (s.takeWhile (· = quote)).take 2
  (extra, s.drop extra.length)

/-- After a backslash at the end of a line, the blanks and line ends up to the next text are no part of it. -/
def continuation? (s : List Char) : Option (List Char) :=
  match skipBlanks s with
  | '\n' :: rest => some (rest.dropWhile fun c => isBlank c || c = '\n')
  | _ => none

theorem continuation?_length {s rest : List Char} (h : continuation? s = some rest) : rest.length < s.length := by
  unfold continuation? at h
  split at h
  · rename_i t ht
    obtain rfl := by simpa using h
    have h₁ := (List.dropWhile_sublist (fun c => isBlank c || c = '\n') (l := t)).length_le
    have h₂ := skipBlanks_length_le s
    simp only [ht, List.length_cons] at h₂
    omega
  · simp at h

def basicLines (s : List Char) : Option (List Char × List Char) :=
  match s with
  | [] => none
  | '\x22' :: '\x22' :: '\x22' :: rest => some (closing '\x22' rest)
  | '\x5c' :: rest =>
    match _h : continuation? rest with
    | some rest => basicLines rest
    | none =>
      match _h : escaped? rest with
      | none => none
      | some (c, rest) => (basicLines rest).map fun (cs, rest) => (c :: cs, rest)
  | c :: rest =>
    if isVisible c || c = '\n' then (basicLines rest).map fun (cs, rest) => (c :: cs, rest) else none
termination_by s.length
decreasing_by
  · have := continuation?_length _h; simp only [List.length_cons]; omega
  · have := escaped?_length _h; simp only [List.length_cons]; omega
  · simp

def rawLines : List Char → Option (List Char × List Char)
  | [] => none
  | '\x27' :: '\x27' :: '\x27' :: rest => some (closing '\x27' rest)
  | c :: rest =>
    if isVisible c || c = '\n' then (rawLines rest).map fun (cs, rest) => (c :: cs, rest) else none

def dropFirstLineEnd : List Char → List Char
  | '\n' :: rest => rest
  | s => s

def read : Reader String := fun s =>
  (match s with
  | '\x22' :: '\x22' :: '\x22' :: rest => basicLines (dropFirstLineEnd rest)
  | '\x22' :: rest => basic rest
  | '\x27' :: '\x27' :: '\x27' :: rest => rawLines (dropFirstLineEnd rest)
  | '\x27' :: rest => raw rest
  | _ => none).map fun (cs, rest) => (String.ofList cs, rest)

def readLine : Reader String := fun s =>
  (match s with
  | '\x22' :: rest => basic rest
  | '\x27' :: rest => raw rest
  | _ => none).map fun (cs, rest) => (String.ofList cs, rest)

end IrcLink.Toml.Text
