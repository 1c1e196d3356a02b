import IrcLink.Text.CharClass

/-!
Quoted texts, as messages show them: between double quotes, with an escape for everything that would not show as
itself.
-/

namespace IrcLink.Quoted

def hexDigits (n : Nat) : String := String.ofList (Nat.toDigits 16 n)

/-- The form of one character. A quote and a backslash take a backslash; what attaches to the character before it
is escaped too, since it would otherwise attach to the quote. -/
def escape (c : Char) : String :=
  if c = '\x00' then "\\0"
  else if c = '\t' then "\\t"
  else if c = '\r' then "\\r"
  else if c = '\n' then "\\n"
  else if c = '\x22' then "\\\""
  else if c = '\x5c' then "\\\\"
  else if CharClass.extendsGrapheme c || !CharClass.isPrintable c then "\\u\x7b" ++ hexDigits c.toNat ++ "\x7d"
  else c.toString

def quote (s : String) : String := "\"" ++ String.join (s.toList.map escape) ++ "\""

end IrcLink.Quoted
