import IrcLink.Decimal.Digits
import IrcLink.Toml.Text
import IrcLink.Toml.Value

/-!
Numbers and moments. An underscore may stand between two digits; a decimal number has no leading zero.
-/

namespace IrcLink.Toml

open Reader

namespace Number

def digitValue (base : Nat) (c : Char) : Option Nat :=
  (Text.hexValue c).bind fun n => if n < base then some n else none

/-- Digits of a base, first digit first; `after` a digit an underscore may stand before the next. -/
def run (base : Nat) : Bool → List Char → List Nat × List Char
  | _, [] => ([], [])
  | after, '_' :: rest =>
    match rest with
    | [] => ([], ['_'])
    | d :: more =>
      match digitValue base d with
      | some n => if after then let (ns, last) := run base true more; (n :: ns, last) else ([], '_' :: d :: more)
      | none => ([], '_' :: d :: more)
  | _, c :: rest =>
    match digitValue base c with
    | some n => let (ns, last) := run base true rest; (n :: ns, last)
    | none => ([], c :: rest)

def digits (base : Nat) (s : List Char) : List Nat × List Char := run base false s

def sign : List Char → Option Bool × List Char
  | '+' :: rest => (some false, rest)
  | '-' :: rest => (some true, rest)
  | s => (none, s)

def whole : Reader (Bool × List Nat) := fun s =>
  let (negative, s) := sign s
  let negative := negative.getD false
  match s with
  | '0' :: rest => some ((negative, [0]), rest)
  | _ =>
    match digits 10 s with
    | ([], _) => none
    | (ns, rest) => some ((negative, ns), rest)

/-- The size of a power of ten. Once it has come to `2 ^ 16`, the digits that follow do not count. -/
def ofPowerDigits (ns : List Nat) : Nat := ns.foldl (fun n d => if n < Nat.pow 2 16 then 10 * n + d else n) 0

def power : Reader Int
  | c :: rest =>
    if c = 'e' ∨ c = 'E' then
      let (negative, rest) := sign rest
      match digits 10 rest with
      | ([], _) => none
      | (ns, rest) => some (if negative = some true then -(ofPowerDigits ns : Int) else ofPowerDigits ns, rest)
    else none
  | [] => none

def fraction : Reader (List Nat)
  | '.' :: rest =>
    match digits 10 rest with
    | ([], _) => none
    | (ns, rest) => some (ns, rest)
  | _ => none

def decimal : Reader Binary64 := fun s => do
  let ((negative, ns), rest) ← whole s
  match fraction rest with
  | some (fs, rest) =>
    let (e, rest) := (power rest).getD (0, rest)
    return (.ofDecimal negative (ns ++ fs) (e - fs.length), rest)
  | none =>
    let (e, rest) ← power rest
    return (.ofDecimal negative ns e, rest)

/-- A number too large for a float is refused, but not one too far below zero. -/
def isAccepted : Binary64 → Bool
  | .infinite negative => negative
  | _ => true

def named : Reader Binary64 := fun s =>
  let (negative, s) := sign s
  match literal ['i', 'n', 'f'] s with
  | some ((), rest) => some (.infinite (negative.getD false), rest)
  | none => (literal ['n', 'a', 'n'] s).map fun ((), rest) => (.nan, rest)

def float : Reader Binary64 := fun s =>
  match decimal s with
  | some (x, rest) => if isAccepted x then some (x, rest) else none
  | none => named s

def integer : Reader Int := fun s =>
  let based (base : Nat) (s : List Char) : Option (Int × List Char) :=
    match digits base s with
    | ([], _) => none
    | (ns, rest) =>
      let n := Digits.toNat base ns
      if n < Nat.pow 2 63 then some ((n : Int), rest) else none
  match s with
  | '0' :: 'x' :: rest => based 16 rest
  | '0' :: 'o' :: rest => based 8 rest
  | '0' :: 'b' :: rest => based 2 rest
  | _ => do
    let ((negative, ns), rest) ← whole s
    let n := Digits.toNat 10 ns
    if negative then
      if n ≤ Nat.pow 2 63 then some (-(n : Int), rest) else none
    else if n < Nat.pow 2 63 then some ((n : Int), rest) else none

end Number

namespace Moment

def field : Nat → Reader Nat
  | 0, s => some (0, s)
  | n + 1, c :: s => do
    let d ← Number.digitValue 10 c
    let (m, rest) ← field n s
    return (d * Nat.pow 10 n + m, rest)
  | _ + 1, [] => none

def inRange (lo hi : Nat) (r : Reader Nat) : Reader Nat := fun s => do
  let (n, rest) ← r s
  if lo ≤ n ∧ n ≤ hi then some (n, rest) else none

def isLeap (year : Nat) : Bool := year % 4 == 0 && (year % 100 != 0 || year % 400 == 0)

def daysIn (year month : Nat) : Nat :=
  if month = 2 then if isLeap year then 29 else 28
  else if month = 4 ∨ month = 6 ∨ month = 9 ∨ month = 11 then 30
  else 31

def date : Reader Unit := fun s => do
  let (year, s) ← field 4 s
  let ((), s) ← literal ['-'] s
  let (month, s) ← inRange 1 12 (field 2) s
  let ((), s) ← literal ['-'] s
  let (_, s) ← inRange 1 (daysIn year month) (field 2) s
  return ((), s)

/-- The second 60 is a leap second. -/
def time : Reader Unit := fun s => do
  let (_, s) ← inRange 0 23 (field 2) s
  let ((), s) ← literal [':'] s
  let (_, s) ← inRange 0 59 (field 2) s
  let ((), s) ← literal [':'] s
  let (_, s) ← inRange 0 60 (field 2) s
  match s with
  | '.' :: rest =>
    let (_, s) ← some1 Char.isDigit rest
    return ((), s)
  | _ => return ((), s)

def offset (s : List Char) : List Char :=
  match s with
  | 'Z' :: rest => rest
  | 'z' :: rest => rest
  | c :: rest =>
    if c = '+' ∨ c = '-' then
      ((do
        let (_, s) ← inRange 0 23 (field 2) rest
        let ((), s) ← literal [':'] s
        let (_, s) ← inRange 0 59 (field 2) s
        return s) : Option (List Char)).getD s
    else s
  | [] => s

def read : Reader Unit := fun s =>
  match date s with
  | none => time s
  | some ((), rest) =>
    match rest with
    | c :: after =>
      if c = 'T' ∨ c = 't' ∨ c = ' ' then
        match time after with
        | some ((), rest) => some ((), offset rest)
        | none => some ((), rest)
      else some ((), rest)
    | [] => some ((), [])

end Moment

end IrcLink.Toml
