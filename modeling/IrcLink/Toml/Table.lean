import IrcLink.Toml.Value

/-!
Putting a table together from entries whose keys may be paths. A table comes to be in one of three ways, and that
decides what may be added to it later.
-/

namespace IrcLink.Toml

inductive Origin where
  | header
  /-- As a step on the way to a header. -/
  | step
  /-- As a step on the way to an entry. -/
  | dotted
  deriving Repr, DecidableEq

inductive Node where
  | leaf (value : Value)
  | table (origin : Origin) (entries : List (String × Node))
  | tables (items : List (List (String × Node)))

namespace Node

abbrev Entries := List (String × Node)

def put (key : String) (node : Node) (entries : Entries) : Entries :=
  entries.map fun (k, n) => if k = key then (k, node) else (k, n)

/-- Walks along a path, making the tables that are missing, and changes the table at its end. A repeated header
stands for its last table. Only what a path has made can be walked into by an entry's own path. -/
def walk (made : Origin) (change : Origin → Entries → Option Entries) :
    List String → Origin → Entries → Option Entries
  | [], origin, entries => change origin entries
  | key :: path, _, entries =>
    match entries.lookup key with
    | none => (walk made change path made []).map fun es => entries ++ [(key, .table made es)]
    | some (.leaf _) => none
    | some (.table o es) =>
      if made = .dotted ∧ o = .header then none
      else (walk made change path o es).map fun es => put key (.table o es) entries
    | some (.tables items) =>
      match items.getLast? with
      | none => none
      | some es =>
        (walk made change path .header es).map fun es => put key (.tables (items.dropLast ++ [es])) entries

/-- Adds an entry. No key is given twice, and an entry with a path goes into no table but those that such paths
made. -/
def assign (path : List String) (key : String) (value : Value) (entries : Entries) : Option Entries :=
  walk .dotted (fun origin es =>
    if origin = .dotted ↔ path = [] then none
    else if (es.lookup key).isSome then none
    else some (es ++ [(key, .leaf value)])) path .header entries

structure Assignment where
  path : List String
  key : String
  value : Value

def assignAll (entries : Entries) (as : List Assignment) : Option Entries :=
  as.foldlM (fun es a => assign a.path a.key a.value es) entries

/-- Gives a table its header. It may have been a step on the way to another header before; it then moves to the end
of the table it belongs to, with what it held. -/
def addTable (path : List String) (key : String) (as : List Assignment) : Entries → Option Entries :=
  walk .step (fun _ es => do
    let held ← match es.lookup key with
      | none => some []
      | some (.table .step held) => some held
      | some _ => none
    let own ← assignAll held as
    return es.filter (·.1 ≠ key) ++ [(key, .table .header own)]) path .header

def addToTables (path : List String) (key : String) (as : List Assignment) : Entries → Option Entries :=
  walk .step (fun _ es => do
    let own ← assignAll [] as
    match es.lookup key with
    | none => return es ++ [(key, .tables [own])]
    | some (.tables items) => return put key (.tables (items ++ [own])) es
    | some _ => none) path .header

mutual

def toValue : Node → Value
  | .leaf v => v
  | .table _ entries => .table (toEntries entries)
  | .tables items => .array (toTables items)

def toEntries : List (String × Node) → List (String × Value)
  | [] => []
  | (k, n) :: rest => (k, n.toValue) :: toEntries rest

def toTables : List (List (String × Node)) → List Value
  | [] => []
  | es :: rest => .table (toEntries es) :: toTables rest

end

end Node

end IrcLink.Toml
