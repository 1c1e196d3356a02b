import IrcLink.Config
import IrcLink.System

/-!
One outgoing connection, kept up for ever: from `disconnected` through a lookup and the addresses it found to
`connected`, and back on any failure. There is a socket only while connecting or connected, and addresses left to try
only between the lookup and the connection.
-/

namespace IrcLink

inductive Phase where
  | disconnected (retryAt : Nat)
  | resolving
  /-- Found these addresses and tried none of them. -/
  | resolved (first : SocketAddress) (rest : List SocketAddress)
  | connecting (socket : Socket) (address : SocketAddress) (rest : List SocketAddress) (deadline : Nat)
  | connected (socket : Socket) (peer : SocketAddress)
  deriving Repr, DecidableEq

inductive State where
  | disconnected
  | resolving
  | resolved
  | connecting
  | connected
  deriving Repr, DecidableEq

structure Flow where
  /-- The last read stopped because the ring was full. A socket is only reported when it becomes readable, so it has to
  be watched anew once there is room. -/
  readFull : Bool := false
  writeFull : Bool := false
  deriving Repr, DecidableEq

/-- Counts over all connections. -/
structure Stats where
  dials : Nat := 0
  rearms : Nat := 0
  bytesRead : Nat := 0
  bytesWritten : Nat := 0
  losses : Nat := 0
  deriving Repr, DecidableEq

structure Connection where
  settings : LinkSettings
  phase : Phase
  flow : Flow := {}
  writeInterest : Bool := false
  stats : Stats := {}
  deriving Repr, DecidableEq

namespace Connection

def create (settings : LinkSettings) (now : Nat) : Connection := { settings, phase := .disconnected now }

variable (c : Connection)

def state : State :=
  match c.phase with
  | .disconnected _ => .disconnected
  | .resolving => .resolving
  | .resolved .. => .resolved
  | .connecting .. => .connecting
  | .connected .. => .connected

def peer? : Option SocketAddress :=
  match c.phase with
  | .connected _ peer => some peer
  | _ => none

def connecting? : Option SocketAddress :=
  match c.phase with
  | .connecting _ address .. => some address
  | _ => none

def socket? : Option Socket :=
  match c.phase with
  | .connecting s .. => some s
  | .connected s _ => some s
  | _ => none

def deadline? : Option Nat :=
  match c.phase with
  | .disconnected retryAt => some retryAt
  | .connecting _ _ _ deadline => some deadline
  | _ => none

def pause (now : Nat) : Connection := { c with phase := .disconnected (now + c.settings.retryDelay) }

end Connection

end IrcLink
