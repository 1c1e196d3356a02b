import IrcLink.World

/-!
Opening a socket towards one address. The connect is only begun here; how it ends is reported by a wait. A socket that
cannot be used is closed at once.
-/

namespace IrcLink

inductive DialError where
  | noSocket (code : ErrorCode)
  | noOption (code : ErrorCode)
  | refused (code : ErrorCode)
  /-- Nobody would report the end of a connect that is over already. -/
  | notInProgress
  deriving Repr, DecidableEq

namespace World

variable {ω : Type} (S : System ω) (w : World ω)

def close (s : Socket) : World ω := (w.call S (.close s)).2

def beginConnect (s : Socket) (address : SocketAddress) : Except DialError Socket × World ω :=
  match w.call S (.connect s address) with
  | (.inProgress, w) => (.ok s, w)
  | (.atOnce, w) => (.error .notInProgress, w.close S s)
  | (.failed code, w) => (.error (.refused code), w.close S s)

def setOptions (s : Socket) (noDelay : Bool) : Except ErrorCode Unit × World ω :=
  match w.call S (.setNonBlocking s) with
  | (.error code, w) => (.error code, w)
  | (.ok (), w) => if noDelay then w.call S (.setNoDelay s) else (.ok (), w)

def dial (noDelay : Bool) (address : SocketAddress) : Except DialError Socket × World ω :=
  match (w.record S (.dialled address)).call S (.openSocket address.family) with
  | (.error code, w) => (.error (.noSocket code), w)
  | (.ok s, w) =>
    match w.setOptions S s noDelay with
    | (.error code, w) => (.error (.noOption code), w.close S s)
    | (.ok (), w) => w.beginConnect S s address

def dialWatched (noDelay : Bool) (address : SocketAddress) : Option Socket × World ω :=
  match w.dial S noDelay address with
  | (.error _, w) => (none, w)
  | (.ok s, w) =>
    match w.call S (.register s socketToken .readWrite) with
    | (.error _, w) => (none, w.close S s)
    | (.ok (), w) => (some s, w)

def abandon (s : Socket) : World ω := (w.call S (.deregister s)).2.close S s

end World

end IrcLink
