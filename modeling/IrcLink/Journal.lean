import IrcLink.World

/-!
What a journal tells: the bytes that sockets gave and took, the sockets that are open, and what the program said and
asked for.
-/

namespace IrcLink

namespace Event

def sent : Event → Bytes
  | .call (.write _ data) (.accepted n) => data.take n
  | _ => []

def received : Event → Bytes
  | .call (.read _ _) (.bytes data) => data
  | _ => []

def opened? : Event → Option Socket
  | .call (.openSocket _) (.ok s) => some s
  | _ => none

def closed? : Event → Option Socket
  | .call (.close s) _ => some s
  | _ => none

def dialled? : Event → Option SocketAddress
  | .dialled a => some a
  | _ => none

def asked? : Event → Option Lookup
  | .asked l _ => some l
  | _ => none

def notice? : Event → Option Notice
  | .notice n => some n
  | _ => none

/-- The timeout of a wait; a wait without one gives `some none`. -/
def waitTimeout? : Event → Option (Option Nat)
  | .call (.wait _ timeout) _ => some timeout
  | _ => none

end Event

namespace Journal

variable (j : Journal)

def sent : Bytes := j.flatMap (·.event.sent)
def received : Bytes := j.flatMap (·.event.received)
def dialled : List SocketAddress := j.filterMap (·.event.dialled?)
def asked : List Lookup := j.filterMap (·.event.asked?)
def notices : List Notice := j.filterMap (·.event.notice?)

def openSockets : List Socket :=
  j.foldl (fun left e => match e.event.opened?, e.event.closed? with
    | some s, _ => left ++ [s]
    | none, some s => left.erase s
    | none, none => left) []

def cutAtWaits (before : Journal) : Journal → List (Option Nat × Journal) × Journal
  | [] => ([], before)
  | e :: rest =>
    match e.event.waitTimeout? with
    | some timeout =>
      let (cuts, last) := cutAtWaits [] rest
      ((timeout, before) :: cuts, last)
    | none => cutAtWaits (before ++ [e]) rest

end Journal

end IrcLink
