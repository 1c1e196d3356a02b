import IrcLink.Toml.Number
import IrcLink.Toml.Table

/-!
Reading a document: keys, values, and lines under headers. A text that breaks the notation, or gives a key twice, has
no value; which rule it breaks is not told.
-/

namespace IrcLink.Toml

open Reader

namespace Key

def isBare (c : Char) : Bool := c.isAlphanum || c = '_' || c = '-'

def part : Reader String := fun s =>
  match Text.readLine s with
  | some r => some r
  | none => (some1 isBare s).map fun (cs, rest) => (String.ofList cs, rest)

def dot : Reader Unit := fun s => (literal ['.'] (skipBlanks s)).map fun ((), rest) => ((), skipBlanks rest)

def maxParts : Nat := 79

def read : Reader (List String × String) := fun s => do
  let (parts, rest) ← separated dot part s
  let key ← parts.getLast?
  if parts.length ≤ maxParts then some ((parts.dropLast, key), rest) else none

end Key

namespace Value

def maxDepth : Nat := 79

def scalar : Reader Value := fun s =>
  match Text.read s with
  | some (t, rest) => some (.string t, rest)
  | none =>
    match literal ['t', 'r', 'u', 'e'] s with
    | some ((), rest) => some (.boolean true, rest)
    | none =>
      match literal ['f', 'a', 'l', 's', 'e'] s with
      | some ((), rest) => some (.boolean false, rest)
      | none =>
        match Moment.read s with
        | some ((), rest) => some (.moment, rest)
        | none =>
          match Number.float s with
          | some (x, rest) => some (.float x, rest)
          | none => (Number.integer s).map fun (n, rest) => (.integer n, rest)

def comma : Reader Unit := fun s => (literal [','] (skipLines s)).map fun ((), rest) => ((), skipLines rest)

def items (item : Reader Value) : Reader Value := fun s =>
  let s := skipLines s
  let (vs, rest) := (separated comma item s).getD ([], s)
  let rest := if vs = [] then rest else
    match comma rest with
    | some ((), rest) => rest
    | none => skipLines rest
  (literal [']'] rest).map fun ((), rest) => (.array vs, rest)

def assignment (item : Reader Value) : Reader Node.Assignment := fun s => do
  let ((path, key), rest) ← Key.read (skipBlanks s)
  let ((), rest) ← literal ['='] (skipBlanks rest)
  let (value, rest) ← item (skipBlanks rest)
  return (⟨path, key, value⟩, skipBlanks rest)

/-- The rest of an inline table, which keeps to one line and ends without a comma. -/
def fields (item : Reader Value) : Reader Value := fun s => do
  let s := skipBlanks s
  let (as, rest) := (separated (literal [',']) (assignment item) s).getD ([], s)
  let ((), rest) ← literal ['}'] rest
  let entries ← Node.assignAll [] as
  return (.table (Node.toEntries entries), rest)

def read : Nat → Reader Value
  | 0, s => scalar s
  | depth + 1, s =>
    match s with
    | '[' :: rest => items (read depth) rest
    | '{' :: rest => fields (read depth) rest
    | s => scalar s

end Value

namespace Document

inductive Header where
  | table (path : List String) (key : String)
  | tables (path : List String) (key : String)

def header : Reader Header := fun s =>
  match s with
  | '[' :: '[' :: rest => do
    let ((path, key), rest) ← Key.read (skipBlanks rest)
    let ((), rest) ← literal [']', ']'] (skipBlanks rest)
    return (.tables path key, ← endLine? rest)
  | '[' :: rest => do
    let ((path, key), rest) ← Key.read (skipBlanks rest)
    let ((), rest) ← literal [']'] (skipBlanks rest)
    return (.table path key, ← endLine? rest)
  | _ => none

def entry : Reader Node.Assignment := fun s => do
  let (a, rest) ← Value.assignment (Value.read Value.maxDepth) s
  return (a, ← endLine? rest)

def body (s : List Char) : List Node.Assignment × List Char :=
  let (as, rest) := many (fun s => entry (skipLines s)) s
  (as, skipLines rest)

structure Section where
  header : Header
  body : List Node.Assignment

def readSection : Reader Section := fun s => do
  let (h, rest) ← header s
  let (as, rest) := body rest
  return (⟨h, as⟩, rest)

def addSection (entries : Node.Entries) (s : Section) : Option Node.Entries :=
  match s.header with
  | .table path key => Node.addTable path key s.body entries
  | .tables path key => Node.addToTables path key s.body entries

def sections (text : String) : Option (List Node.Assignment × List Section) :=
  let s := unifyLineEnds text.toList
  let s := match s with
    | '\uFEFF' :: rest => rest
    | s => s
  let (as, rest) := body s
  match many readSection rest with
  | (ss, []) => some (as, ss)
  | _ => none

/-- The entries of a document, in the order in which their keys first stand in it; a step of a path that gets its own
header later stands where that header is. -/
def read (text : String) : Option (List (String × Value)) := do
  let (as, ss) ← sections text
  let entries ← ss.foldlM addSection (← Node.assignAll [] as)
  return Node.toEntries entries

end Document

end IrcLink.Toml
