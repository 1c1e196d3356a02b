import IrcLink.World

/-!
The list in which a wait leaves its events. It serves one wait after another, so what one has reported must be gone
before the next.
-/

namespace IrcLink

structure Poller where
  ready : List Readiness := []
  deriving Repr, DecidableEq

namespace Poller

def clear (p : Poller) : Poller := { p with ready := [] }

/-- Says how many events there are; a wait that is interrupted has none. -/
def wait {ω : Type} (S : System ω) (p : Poller) (capacity : Nat) (timeout : Option Nat) (w : World ω) :
    Except ErrorCode Nat × Poller × World ω :=
  let p := p.clear
  match w.wait S capacity timeout with
  | (.events ready, w) => (.ok (p.ready ++ ready).length, { p with ready := p.ready ++ ready }, w)
  | (.interrupted, w) => (.ok 0, p, w)
  | (.failed code, w) => (.error code, p, w)

def takeReady (p : Poller) : List Readiness × Poller := (p.ready, p.clear)

/-- Takes the list back for the sake of its room, not of what is in it. -/
def restoreReady (p : Poller) (ready : List Readiness) : Poller := { p with ready }.clear

end Poller

end IrcLink
