import IrcLink.Net.Address

/-!
Looking a host up. A text that is an address stands for itself, whatever a name service would say.
-/

namespace IrcLink

structure Lookup where
  host : String
  port : Nat
  deriving Repr, DecidableEq

inductive LookupError where
  | inFlight
  | submit (code : String)
  | failed (lookup : Lookup)
  | noAddresses (lookup : Lookup)
  deriving Repr, DecidableEq

def LookupError.message? : LookupError → Option String
  | inFlight => some "resolution already in flight"
  | noAddresses l => some ("lookup of " ++ l.host ++ ":" ++ toString l.port ++ " returned no addresses")
  | submit _ => none
  | failed _ => none

/-- The addresses of a host, in the order in which they are to be tried. -/
abbrev Resolution := Except LookupError (List SocketAddress)

namespace Lookup

def resolve (l : Lookup) (found : Option (List SocketAddress)) : Resolution :=
  match IpAddress.parse? l.host with
  | some ip => .ok [{ ip, port := l.port }]
  | none =>
    if l.host.toList.contains '\x00' then .error (.failed l)
    else match found with
      | none => .error (.failed l)
      | some [] => .error (.noAddresses l)
      | some addresses => .ok (addresses.map fun a => { a with port := l.port })

end Lookup

end IrcLink
