import IrcLink.Bytes
import IrcLink.Net.Address

/-!
The operating system, as far as the program sees it: a list of calls, the answers each may get, and something that
answers them. Nothing is assumed of the answers; a statement about every system is one about every way in which
sockets, waits and clocks can behave.
-/

namespace IrcLink

/-- The name of an error, such as `ECONNREFUSED`. -/
abbrev ErrorCode := String

abbrev Socket := Nat

inductive Family where
  | v4
  | v6
  deriving Repr, DecidableEq

def SocketAddress.family (a : SocketAddress) : Family :=
  match a.ip with
  | .v4 .. => .v4
  | .v6 _ => .v6

inductive Interest where
  | read
  | readWrite
  deriving Repr, DecidableEq

structure Readiness where
  token : Nat := 0
  readable : Bool := false
  writable : Bool := false
  /-- The peer hung up, in either direction. -/
  closed : Bool := false
  error : Bool := false
  deriving Repr, DecidableEq

def socketToken : Nat := 0

/-- The name under which a wait reports that another thread left something. -/
def completionToken : Nat := 1

inductive Call where
  | createPoller (capacity : Nat)
  | createWaker (token : Nat)
  | wait (capacity : Nat) (timeout : Option Nat)
  | wake
  | startThread
  | openSocket (family : Family)
  | setNonBlocking (s : Socket)
  | setNoDelay (s : Socket)
  | connect (s : Socket) (address : SocketAddress)
  /-- From now on waits report the socket under the token. -/
  | register (s : Socket) (token : Nat) (interest : Interest)
  | reregister (s : Socket) (token : Nat) (interest : Interest)
  | deregister (s : Socket)
  | takeError (s : Socket)
  | peerAddress (s : Socket)
  | read (s : Socket) (room : Nat)
  | write (s : Socket) (data : Bytes)
  | close (s : Socket)
  deriving Repr, DecidableEq

namespace Call

/-- The longest timeout of a wait. It is counted in milliseconds, in 31 bits. -/
def longestWait : Nat := Nat.pow 2 31 - 1

inductive Waited where
  | events (ready : List Readiness)
  | interrupted
  | failed (code : ErrorCode)
  deriving Repr, DecidableEq

inductive Connected where
  | atOnce
  | inProgress
  | failed (code : ErrorCode)
  deriving Repr, DecidableEq

inductive Peer where
  | known
  | notConnected
  | failed (code : ErrorCode)
  deriving Repr, DecidableEq

inductive Received where
  /-- No bytes at all are the end of the stream. -/
  | bytes (data : Bytes)
  | interrupted
  | wouldBlock
  | failed (code : ErrorCode)
  deriving Repr, DecidableEq

inductive Sent where
  | accepted (n : Nat)
  | interrupted
  | wouldBlock
  | failed (code : ErrorCode)
  deriving Repr, DecidableEq

@[reducible]
def Answer : Call → Type
  | createPoller _ => Except ErrorCode Unit
  | createWaker _ => Except ErrorCode Unit
  | wait _ _ => Waited
  | wake => Unit
  | startThread => Except ErrorCode Unit
  | openSocket _ => Except ErrorCode Socket
  | setNonBlocking _ => Except ErrorCode Unit
  | setNoDelay _ => Except ErrorCode Unit
  | connect _ _ => Connected
  | register _ _ _ => Except ErrorCode Unit
  | reregister _ _ _ => Except ErrorCode Unit
  | deregister _ => Except ErrorCode Unit
  | takeError _ => Except ErrorCode (Option ErrorCode)
  | peerAddress _ => Peer
  | read _ _ => Received
  | write _ _ => Sent
  | close _ => Unit

/-- The answers after which a call is made again, just as it was. -/
def retries : (c : Call) → c.Answer → Bool
  | read _ _, a => a = Received.interrupted
  | write _ _, a => a = Sent.interrupted
  | _, _ => false

end Call

end IrcLink
