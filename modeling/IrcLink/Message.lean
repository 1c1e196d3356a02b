import IrcLink.Bytes

/-!
Inbound lines: `[":" origin " "] command [" " params] ("\r\n" | "\n")`. The parameters stay as they came; the two
questions handlers ask of them are `firstParam` and `trailing`.
-/

namespace IrcLink

structure Message where
  origin : Option Bytes
  command : Bytes
  /-- All that follows the one space after the command. -/
  params : Bytes
  deriving Repr, DecidableEq

inductive ParseError where
  | incomplete
  | invalid
  deriving Repr, DecidableEq

def ParseError.message : ParseError → String
  | incomplete => "incomplete"
  | invalid => "invalid message"

namespace Message

open Bytes

def isDigit (b : UInt8) : Bool := 48 ≤ b && b ≤ 57

def isCommandByte (b : UInt8) : Bool := isDigit b || (65 ≤ b && b ≤ 90) || (97 ≤ b && b ≤ 122)

/-- A line ends in CR LF or in LF alone: one CR before the LF is not part of it. -/
def dropCr (line : Bytes) : Bytes := if line.getLast? = some cr then line.dropLast else line

def splitOrigin : Bytes → Except ParseError (Option Bytes × Bytes)
  | [] => .ok (none, [])
  | b :: line =>
    if b = colon then
      match splitAt? space line with
      | none => .error .invalid
      | some (origin, rest) => .ok (some origin, space :: rest)
    else .ok (none, b :: line)

def ofLine (line : Bytes) : Except ParseError Message := do
  let (origin, rest) ← splitOrigin line
  let body := rest.dropWhile (· = space)
  if body = [] then .error .invalid else
  let (command, params) := (splitAt? space body).getD (body, [])
  if command.all isCommandByte then .ok ⟨origin, command, params⟩ else .error .invalid

def parse (data : Bytes) : Except ParseError (Message × Nat) :=
  match splitAt? lf data with
  | none => .error .incomplete
  | some (line, _) => (ofLine (dropCr line)).map (·, line.length + 1)

variable (m : Message)

def trailing : Option Bytes :=
  match m.params with
  | [] => none
  | b :: rest => if b = colon then some rest else afterPair? space colon m.params

/-- The bytes skipped before the first parameter: tab, LF, form feed, CR and space. -/
def isBlank (b : UInt8) : Bool := b == 9 || b == 10 || b == 12 || b == 13 || b == 32

def firstParam : Option Bytes :=
  match m.params.dropWhile isBlank with
  | [] => none
  | b :: rest => if b = colon then some rest else some ((b :: rest).takeWhile (· ≠ space))

def isNumeric : Bool := m.command.length == 3 && m.command.all isDigit

end Message

end IrcLink
