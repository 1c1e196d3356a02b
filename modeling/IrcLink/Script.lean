import IrcLink.World

/-!
An operating system that answers from a script. Each socket that is created takes the next item of a list, which
says how every call on it is answered; past its end calls succeed, reads would block and writes take all.
Waits take turns of their own: what other threads do while the engine waits, and what the wait then reports.
-/

namespace IrcLink

namespace Script

inductive Reading where
  /-- Given out over as many reads as it takes. -/
  | data (bytes : Bytes)
  | endOfStream
  | fails (code : ErrorCode)

inductive Writing where
  | accepts (n : Nat)
  | fails (code : ErrorCode)

structure SocketAnswers where
  create : Except ErrorCode Unit := .ok ()
  nonBlocking : Except ErrorCode Unit := .ok ()
  noDelay : Except ErrorCode Unit := .ok ()
  connect : Call.Connected := .inProgress
  register : List (Except ErrorCode Unit) := []
  reregister : List (Except ErrorCode Unit) := []
  deregister : List (Except ErrorCode Unit) := []
  errors : List (Except ErrorCode (Option ErrorCode)) := []
  peer : List Call.Peer := []
  reads : List Reading := []
  writes : List Writing := []

def noAnswers : SocketAnswers := { connect := .failed "ECONNREFUSED" }

def SocketAnswers.append (a b : SocketAnswers) : SocketAnswers :=
  { a with
    register := a.register ++ b.register
    reregister := a.reregister ++ b.reregister
    deregister := a.deregister ++ b.deregister
    errors := a.errors ++ b.errors
    peer := a.peer ++ b.peer
    reads := a.reads ++ b.reads
    writes := a.writes ++ b.writes }

inductive WaitResult where
  | events (ready : List Readiness)
  | fails (code : ErrorCode)

structure Turn where
  now : Option Nat := none
  threadFails : Bool := false
  more : Option SocketAnswers := none
  lookup : Option (Option (List SocketAddress)) := none
  interrupt : Bool := false
  result : WaitResult := .events []
  completionFirst : Bool := false

end Script

open Script

structure Script where
  upcoming : List SocketAnswers := []
  sockets : List SocketAnswers := []
  opened : List Socket := []
  poller : Except ErrorCode Unit := .ok ()
  waker : Except ErrorCode Unit := .ok ()
  turns : List Turn := []
  clock : Nat := 0
  woken : Bool := false
  threadFailures : Nat := 0

namespace Script

variable (p : Script)

def next {α : Type} (default : α) : List α → α × List α
  | [] => (default, [])
  | a :: rest => (a, rest)

def answersOf (s : Socket) : SocketAnswers := p.sockets.getD s noAnswers

def setAnswers (s : Socket) (e : SocketAnswers) : Script := { p with sockets := p.sockets.set s e }

def current? : Option Socket := p.opened.getLast?

def append (more : SocketAnswers) : Script :=
  match p.current? with
  | none => p
  | some s => p.setAnswers s ((p.answersOf s).append more)

def failedRead (code : ErrorCode) : Call.Received :=
  if code = "EINTR" then .interrupted else if code = "EAGAIN" then .wouldBlock else .failed code

def failedWrite (code : ErrorCode) : Call.Sent :=
  if code = "EINTR" then .interrupted else if code = "EAGAIN" then .wouldBlock else .failed code

theorem failedRead_ne_bytes (code : ErrorCode) (data : Bytes) : failedRead code ≠ .bytes data := by
  unfold failedRead
  split
  · simp
  · split <;> simp

theorem failedWrite_ne_accepted (code : ErrorCode) (n : Nat) : failedWrite code ≠ .accepted n := by
  unfold failedWrite
  split
  · simp
  · split <;> simp

def isEmptyRead : Reading → Bool
  | .data [] => true
  | _ => false

def readNext (room : Nat) (reads : List Reading) : Call.Received × List Reading :=
  match reads.filter (!isEmptyRead ·) with
  | [] => (.wouldBlock, [])
  | .data bytes :: rest =>
    (.bytes (bytes.take room), if bytes.length ≤ room then rest else .data (bytes.drop room) :: rest)
  | .endOfStream :: rest => (.bytes [], rest)
  | .fails code :: rest => (failedRead code, rest)

def writeNext (offered : Nat) : List Writing → Call.Sent × List Writing
  | [] => (.accepted offered, [])
  | .accepts k :: rest => (.accepted (min k offered), rest)
  | .fails code :: rest => (failedWrite code, rest)

def openSocket : Except ErrorCode Socket × Script :=
  let (e, upcoming) := next noAnswers p.upcoming
  let p := { p with upcoming }
  match e.create with
  | .error code => (.error code, p)
  | .ok () =>
    let s := p.sockets.length
    (.ok s, { p with sockets := p.sockets ++ [e], opened := p.opened ++ [s] })

def report (capacity : Nat) (t : Turn) (ready : List Readiness) : List Readiness :=
  let completion : List Readiness :=
    if p.woken then [{ token := completionToken, readable := true }] else []
  (if t.completionFirst then completion ++ ready else ready ++ completion).take capacity

def wait (capacity : Nat) : Call.Waited × Script :=
  let (t, turns) := next {} p.turns
  let p := { p with turns }
  match t.result with
  | .fails code => (if code = "EINTR" then .interrupted else .failed code, p)
  | .events ready => (.events (p.report capacity t ready), { p with woken := false })

def answer : (c : Call) → Script → c.Answer × Script
  | .createPoller _, p => (p.poller, p)
  | .createWaker _, p => (p.waker, p)
  | .wait capacity _, p => p.wait capacity
  | .wake, p => ((), { p with woken := true })
  | .startThread, p =>
    if p.threadFailures = 0 then (.ok (), p)
    else (.error "EAGAIN", { p with threadFailures := p.threadFailures - 1 })
  | .openSocket _, p => p.openSocket
  | .setNonBlocking s, p => ((p.answersOf s).nonBlocking, p)
  | .setNoDelay s, p => ((p.answersOf s).noDelay, p)
  | .connect s _, p => ((p.answersOf s).connect, p)
  | .register s _ _, p =>
    let (a, register) := next (.ok ()) (p.answersOf s).register
    (a, p.setAnswers s { p.answersOf s with register })
  | .reregister s _ _, p =>
    let (a, reregister) := next (.ok ()) (p.answersOf s).reregister
    (a, p.setAnswers s { p.answersOf s with reregister })
  | .deregister s, p =>
    let (a, deregister) := next (.ok ()) (p.answersOf s).deregister
    (a, p.setAnswers s { p.answersOf s with deregister })
  | .takeError s, p =>
    let (a, errors) := next (.ok none) (p.answersOf s).errors
    (a, p.setAnswers s { p.answersOf s with errors })
  | .peerAddress s, p =>
    let (a, peer) := next .known (p.answersOf s).peer
    (a, p.setAnswers s { p.answersOf s with peer })
  | .read s room, p =>
    let (a, reads) := readNext room (p.answersOf s).reads
    (a, p.setAnswers s { p.answersOf s with reads })
  | .write s data, p =>
    let (a, writes) := writeNext data.length (p.answersOf s).writes
    (a, p.setAnswers s { p.answersOf s with writes })
  | .close s, p => ((), { p with opened := p.opened.filter (· ≠ s) })

/-- While the engine waits, the others do what the turn says; after the last turn they ask it to stop. -/
def meanwhile : Option Call → Script → List Deed × Script
  | some (.wait _ _), p =>
    match p.turns with
    | [] => ([.requestStop, .wake], p)
    | t :: _ =>
      let p := { p with
        clock := t.now.getD p.clock
        threadFailures := p.threadFailures + if t.threadFails then 1 else 0 }
      let p := match t.more with
        | some e => p.append e
        | none => p
      let looked := match t.lookup with
        | some found => [Deed.finishLookup found, .wake]
        | none => []
      (looked ++ if t.interrupt then [.requestStop, .wake] else [], p)
  | _, p => ([], p)

/-- Each interruption of a socket is an item of its script. -/
def interruptions : Call → Script → Nat
  | .read s _, p => (p.answersOf s).reads.length
  | .write s _, p => (p.answersOf s).writes.length
  | _, _ => 0

theorem answersOf_setAnswers {p : Script} {s : Socket} (e : SocketAnswers) (h : p.answersOf s ≠ noAnswers) :
    (p.setAnswers s e).answersOf s = e := by
  have hs : s < p.sockets.length := by
    refine Nat.lt_of_not_le fun hs => h ?_
    simp [answersOf, List.getD, List.getElem?_eq_none hs]
  simp [answersOf, setAnswers, hs]

theorem readNext_interrupted {room : Nat} {reads : List Reading} (h : (readNext room reads).1 = .interrupted) :
    (readNext room reads).2.length < reads.length := by
  have hle := List.length_filter_le (!isEmptyRead ·) reads
  simp only [readNext] at h ⊢
  generalize reads.filter (!isEmptyRead ·) = left at h hle ⊢
  cases left with
  | nil => cases h
  | cons r rest =>
    cases r with
    | data => cases h
    | endOfStream => cases h
    | fails code => exact hle

theorem writeNext_interrupted {offered : Nat} {writes : List Writing}
    (h : (writeNext offered writes).1 = .interrupted) :
    (writeNext offered writes).2.length < writes.length := by
  cases writes with
  | nil => simp [writeNext] at h
  | cons wr rest => cases wr <;> simp_all [writeNext]

theorem interruptions_meanwhile (c : Call) (p : Script) : interruptions c (meanwhile (some c) p).2 ≤ interruptions c p := by
  cases c <;> exact Nat.le_refl _

theorem interruptions_wake (c : Call) (p : Script) : interruptions c (answer .wake p).2 ≤ interruptions c p := by
  cases c <;> exact Nat.le_refl _

theorem interruptions_answer (c : Call) (p : Script) (h : c.retries (answer c p).1) :
    interruptions c (answer c p).2 < interruptions c p := by
  cases c with
  | read s room =>
    have hr : (readNext room (p.answersOf s).reads).1 = .interrupted := of_decide_eq_true h
    have hs : p.answersOf s ≠ noAnswers := by
      intro hs
      simp [hs, noAnswers, readNext] at hr
    simpa [interruptions, answer, answersOf_setAnswers _ hs] using readNext_interrupted hr
  | write s data =>
    have hw : (writeNext data.length (p.answersOf s).writes).1 = .interrupted := of_decide_eq_true h
    have hs : p.answersOf s ≠ noAnswers := by
      intro hs
      simp [hs, noAnswers, writeNext] at hw
    simpa [interruptions, answer, answersOf_setAnswers _ hs] using writeNext_interrupted hw
  | _ => simp [Call.retries] at h

def system : System Script where
  time := clock
  meanwhile
  answer
  interruptions
  interruptions_meanwhile
  interruptions_wake
  interruptions_answer

end Script

end IrcLink
