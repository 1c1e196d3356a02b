/-!
Addresses and their texts. An IPv6 address is written with its longest run of zero groups left out, the first of
several; one that stands for an IPv4 address ends in that one's text.
-/

namespace IrcLink

inductive IpAddress where
  | v4 (a b c d : UInt8)
  | v6 (groups : Vector UInt16 8)
  deriving Repr, DecidableEq

structure SocketAddress where
  ip : IpAddress
  port : Nat
  scope : Nat := 0
  deriving Repr, DecidableEq

namespace IpAddress

def v4Text (a b c d : UInt8) : String := ".".intercalate ([a, b, c, d].map fun x => toString x.toNat)

def groupsText (groups : List UInt16) : String :=
  ":".intercalate (groups.map fun g => String.ofList (Nat.toDigits 16 g.toNat))

/-- Where the longest run of zero groups starts and how long it is. `index` is the place of the first group. -/
def zeroRun (index : Nat) : List UInt16 → Nat × Nat
  | [] => (index, 0)
  | g :: rest =>
    let here := ((g :: rest).takeWhile (· = 0)).length
    let later := zeroRun (index + 1) rest
    if later.2 ≤ here then (index, here) else later

def mapped? (groups : List UInt16) : Option (UInt8 × UInt8 × UInt8 × UInt8) :=
  match groups with
  | [0, 0, 0, 0, 0, 0xFFFF, x, y] => some ((x >>> 8).toUInt8, x.toUInt8, (y >>> 8).toUInt8, y.toUInt8)
  | _ => none

def v6Text (groups : List UInt16) : String :=
  match mapped? groups with
  | some (a, b, c, d) => "::ffff:" ++ v4Text a b c d
  | none =>
    let (start, len) := zeroRun 0 groups
    if 1 < len then groupsText (groups.take start) ++ "::" ++ groupsText (groups.drop (start + len))
    else groupsText groups

def text : IpAddress → String
  | v4 a b c d => v4Text a b c d
  | v6 groups => v6Text groups.toList

def digitOf (base : Nat) (c : Char) : Option Nat :=
  let d :=
    if '0' ≤ c ∧ c ≤ '9' then c.toNat - 48
    else if 'a' ≤ c ∧ c ≤ 'f' then c.toNat - 87
    else if 'A' ≤ c ∧ c ≤ 'F' then c.toNat - 55
    else base
  if d < base then some d else none

def number (base maxDigits bound : Nat) (leadingZeros : Bool) (s : List Char) : Option (Nat × List Char) :=
  let ds := (s.takeWhile fun c => (digitOf base c).isSome).filterMap (digitOf base)
  let n := ds.foldl (fun n d => base * n + d) 0
  if ds = [] ∨ maxDigits < ds.length ∨ bound ≤ n then none
  else if !leadingZeros ∧ ds.head? = some 0 ∧ ds.length ≠ 1 then none
  else some (n, s.drop ds.length)

def readChar (c : Char) : List Char → Option (List Char)
  | d :: rest => if c = d then some rest else none
  | [] => none

def readV4 (s : List Char) : Option ((UInt8 × UInt8 × UInt8 × UInt8) × List Char) := do
  let (a, s) ← number 10 3 256 false s
  let (b, s) ← number 10 3 256 false (← readChar '.' s)
  let (c, s) ← number 10 3 256 false (← readChar '.' s)
  let (d, s) ← number 10 3 256 false (← readChar '.' s)
  return ((.ofNat a, .ofNat b, .ofNat c, .ofNat d), s)

/-- Up to `room` groups with colons between them, the last two of which may be written as an IPv4 address, which then
ends the address. `first` groups have no colon before them. -/
def readGroups (first : Bool) : Nat → List Char → List UInt16 × Bool × List Char
  | 0, s => ([], false, s)
  | room + 1, s =>
    let start := if first then some s else readChar ':' s
    match if 0 < room then start.bind readV4 else none with
    | some ((a, b, c, d), rest) =>
      ([a.toUInt16 <<< 8 ||| b.toUInt16, c.toUInt16 <<< 8 ||| d.toUInt16], true, rest)
    | none =>
      match start.bind (number 16 4 0x10000 true) with
      | some (g, rest) =>
        let (gs, ended, last) := readGroups false room rest
        (.ofNat g :: gs, ended, last)
      | none => ([], false, s)

def ofGroups? (groups : List UInt16) : Option IpAddress :=
  if h : groups.length = 8 then some (.v6 ⟨groups.toArray, by simpa using h⟩) else none

def readV6 (s : List Char) : Option (IpAddress × List Char) := do
  let (front, ended, rest) := readGroups true 8 s
  if front.length = 8 then return (← ofGroups? front, rest)
  if ended then none
  let rest ← readChar ':' (← readChar ':' rest)
  let (back, _, rest) := readGroups true (7 - front.length) rest
  return (← ofGroups? (front ++ List.replicate (8 - front.length - back.length) 0 ++ back), rest)

def parse? (s : String) : Option IpAddress :=
  match readV4 s.toList with
  | some ((a, b, c, d), []) => some (.v4 a b c d)
  | _ =>
    match readV6 s.toList with
    | some (ip, []) => some ip
    | _ => none

end IpAddress

namespace SocketAddress

def text (a : SocketAddress) : String :=
  match a.ip with
  | .v4 .. => a.ip.text ++ ":" ++ toString a.port
  | .v6 _ =>
    let scope := if a.scope = 0 then "" else "%" ++ toString a.scope
    "[" ++ a.ip.text ++ scope ++ "]:" ++ toString a.port

def readScope (s : List Char) : Option (Nat × List Char) :=
  match s with
  | '%' :: rest => IpAddress.number 10 rest.length (Nat.pow 2 32) true rest
  | s => some (0, s)

def parse? (s : String) : Option SocketAddress := do
  match s.toList with
  | '[' :: s =>
    let (ip, s) ← IpAddress.readV6 s
    let (scope, s) ← readScope s
    let s ← IpAddress.readChar ':' (← IpAddress.readChar ']' s)
    let (port, s) ← IpAddress.number 10 s.length (Nat.pow 2 16) true s
    if s = [] then some { ip, port, scope } else none
  | s =>
    let ((a, b, c, d), s) ← IpAddress.readV4 s
    let s ← IpAddress.readChar ':' s
    let (port, s) ← IpAddress.number 10 s.length (Nat.pow 2 16) true s
    if s = [] then some { ip := .v4 a b c d, port } else none

end SocketAddress

end IrcLink
