import IrcLink.Bytes

/-!
Outbound lines. Texts go out as UTF-8, the parameters of a `PONG` exactly as they came.
-/

namespace IrcLink

inductive Command where
  | nick (nick : String)
  | user (login realname : String)
  | join (channel : String) (key : Option String)
  | pong (params : Bytes)
  | quit (reason : Option String)
  deriving Repr, DecidableEq

namespace Command

open Bytes

/-- The longest line a server has to take, terminator included. -/
def maxLineLength : Nat := 512

def body : Command → Bytes
  | nick n => ofText "NICK " ++ ofText n
  | user login realname => ofText "USER " ++ ofText login ++ ofText " 8 * :" ++ ofText realname
  | join channel key => ofText "JOIN " ++ ofText channel ++ (key.elim [] fun k => space :: ofText k)
  | pong params => ofText "PONG" ++ (if params = [] then [] else space :: params)
  | quit reason => ofText "QUIT" ++ (reason.elim [] fun r => ofText " :" ++ ofText r)

def encode (c : Command) : Bytes := c.body ++ [cr, lf]

def encodeOnto (buf : Bytes) (c : Command) : Bytes := buf ++ c.encode

end Command

end IrcLink
