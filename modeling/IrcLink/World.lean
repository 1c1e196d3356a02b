import IrcLink.Lookup
import IrcLink.Notice
import IrcLink.System

/-!
The program's surroundings: the operating system, what the other threads share with the engine, and a journal of all
that happened.

Other threads ask the engine to stop, or finish a lookup. Each first leaves what it has and then wakes the engine, so
between the two the engine may come and find it. They act between any two steps of the engine; `System.meanwhile` says
what they do before the next one.
-/

namespace IrcLink

inductive Deed where
  | requestStop
  | finishLookup (found : Option (List SocketAddress))
  | wake
  deriving Repr, DecidableEq

/-- Answers every call, and says what other threads do before the engine's next step: the given call, or a look at the
clock or at what they have left. `ω` is what it remembers. Times are in milliseconds.

A call that is interrupted is made again until it is not, so a system that interrupts one for ever would hang the
engine. `interruptions` bounds how often that can still happen to a call. -/
structure System (ω : Type) where
  time : ω → Nat
  meanwhile : Option Call → ω → List Deed × ω
  answer : (c : Call) → ω → c.Answer × ω
  interruptions : Call → ω → Nat
  interruptions_meanwhile (c : Call) (os : ω) : interruptions c (meanwhile (some c) os).2 ≤ interruptions c os
  interruptions_wake (c : Call) (os : ω) : interruptions c (answer .wake os).2 ≤ interruptions c os
  interruptions_answer (c : Call) (os : ω) (h : c.retries (answer c os).1) :
    interruptions c (answer c os).2 < interruptions c os

inductive Stop where
  /-- The ring is full, or has nothing more to send. -/
  | ring
  | wouldBlock
  | lost
  deriving Repr, DecidableEq

inductive Event where
  | call (c : Call) (a : c.Answer)
  | deed (d : Deed)
  | dialled (address : SocketAddress)
  | receiveEnded (stop : Stop)
  | handled (e : Readiness)
  | asked (l : Lookup) (refusal : Option LookupError)
  | looked (stop : Bool)
  | collected (r : Resolution)
  | notice (n : Notice)

structure Entry where
  time : Nat
  event : Event

abbrev Journal := List Entry

structure Shared where
  stop : Bool := false
  running : List Lookup := []
  /-- Results that were not collected. There is room for one. -/
  results : List Resolution := []
  /-- How many threads have left something and not woken the engine yet. -/
  owed : Nat := 0
  deriving Repr

def Shared.outstanding (s : Shared) : Nat := s.running.length + s.results.length

structure World (ω : Type) where
  os : ω
  shared : Shared := {}
  inFlight : Bool := false
  journal : Journal := []

namespace World

variable {ω : Type} (S : System ω)

section

variable (w : World ω)

def record (e : Event) : World ω := { w with journal := w.journal ++ [⟨S.time w.os, e⟩] }

def ask (c : Call) : c.Answer × World ω :=
  let (a, os) := S.answer c w.os
  (a, { w with os }.record S (.call c a))

def act (d : Deed) : World ω :=
  let w := w.record S (.deed d)
  match d with
  | .requestStop => { w with shared := { w.shared with stop := true, owed := w.shared.owed + 1 } }
  | .finishLookup found =>
    match w.shared.running, w.shared.results with
    | l :: rest, [] =>
      { w with shared := { w.shared with
          running := rest, results := [l.resolve found], owed := w.shared.owed + 1 } }
    | _, _ => w
  | .wake =>
    if w.shared.owed = 0 then w
    else ({ w with shared := { w.shared with owed := w.shared.owed - 1 } }.ask S .wake).2

def letOthersAct (next : Option Call) : World ω :=
  let (deeds, os) := S.meanwhile next w.os
  deeds.foldl (act S) { w with os }

def call (c : Call) : c.Answer × World ω := (w.letOthersAct S (some c)).ask S c

/-- Waits for events. A timeout longer than a wait can be is cut to the longest, and the wait then ends early. -/
def wait (capacity : Nat) (timeout : Option Nat) : Call.Waited × World ω :=
  w.call S (.wait capacity (timeout.map (min Call.longestWait)))

def now : Nat × World ω :=
  let w := w.letOthersAct S none
  (S.time w.os, w)

def takeStop : Bool × World ω :=
  let w := w.letOthersAct S none
  (w.shared.stop, { w with shared := { w.shared with stop := false } }.record S (.looked w.shared.stop))

def collect : Option Resolution × World ω :=
  let w := w.letOthersAct S none
  match w.shared.results with
  | [] => (none, w)
  | r :: rest =>
    (some r, { w with shared := { w.shared with results := rest }, inFlight := false }.record S (.collected r))

end

def startLookup (l : Lookup) (w : World ω) : Except LookupError Unit × World ω :=
  if w.inFlight then (.error .inFlight, w)
  else
    match w.call S .startThread with
    | (.error code, w) => (.error (.submit code), w)
    | (.ok (), w) =>
      (.ok (), { w with shared := { w.shared with running := w.shared.running ++ [l] }, inFlight := true })

theorem act_interruptions (w : World ω) (c : Call) (d : Deed) :
    S.interruptions c (w.act S d).os ≤ S.interruptions c w.os := by
  cases d with
  | requestStop => exact Nat.le_refl _
  | finishLookup found =>
    simp only [act, record]
    split <;> exact Nat.le_refl _
  | wake =>
    by_cases h : w.shared.owed = 0
    · simp [act, record, h]
    · simpa [act, ask, record, h] using S.interruptions_wake c w.os

theorem letOthersAct_interruptions (w : World ω) (c : Call) :
    S.interruptions c (w.letOthersAct S (some c)).os ≤ S.interruptions c w.os := by
  have acts (ds : List Deed) (w : World ω) :
      S.interruptions c (ds.foldl (act S) w).os ≤ S.interruptions c w.os := by
    induction ds generalizing w with
    | nil => exact Nat.le_refl _
    | cons d ds ih => exact Nat.le_trans (ih _) (act_interruptions S w c d)
  exact Nat.le_trans (acts _ _) (S.interruptions_meanwhile c w.os)

theorem call_interruptions {w w' : World ω} {c : Call} {a : c.Answer} (h : w.call S c = (a, w'))
    (ha : c.retries a) : S.interruptions c w'.os < S.interruptions c w.os := by
  obtain ⟨rfl, rfl⟩ := Prod.mk.inj h
  exact Nat.lt_of_lt_of_le (S.interruptions_answer c _ ha) (w.letOthersAct_interruptions S c)

theorem act_outstanding (w : World ω) (d : Deed) : (w.act S d).shared.outstanding = w.shared.outstanding := by
  cases d with
  | requestStop => rfl
  | finishLookup found =>
    simp only [act, record]
    split
    · rename_i hr hs
      simp [Shared.outstanding, hr, hs]
    · rfl
  | wake => by_cases h : w.shared.owed = 0 <;> simp [act, ask, record, h, Shared.outstanding]

theorem letOthersAct_outstanding (w : World ω) (next : Option Call) :
    (w.letOthersAct S next).shared.outstanding = w.shared.outstanding := by
  have acts (ds : List Deed) (w : World ω) :
      (ds.foldl (act S) w).shared.outstanding = w.shared.outstanding := by
    induction ds generalizing w with
    | nil => rfl
    | cons d ds ih => rw [List.foldl_cons, ih, act_outstanding]
  exact acts _ _

theorem act_inFlight (w : World ω) (d : Deed) : (w.act S d).inFlight = w.inFlight := by
  cases d with
  | requestStop => rfl
  | finishLookup found =>
    simp only [act]
    split <;> rfl
  | wake => by_cases h : w.shared.owed = 0 <;> simp [act, ask, record, h]

theorem letOthersAct_inFlight (w : World ω) (next : Option Call) : (w.letOthersAct S next).inFlight = w.inFlight := by
  have acts (ds : List Deed) (w : World ω) : (ds.foldl (act S) w).inFlight = w.inFlight := by
    induction ds generalizing w with
    | nil => rfl
    | cons d ds ih => rw [List.foldl_cons, ih, act_inFlight]
  exact acts _ _

theorem collect_outstanding {w w' : World ω} {r : Resolution} (h : w.collect S = (some r, w')) :
    w'.shared.outstanding + 1 = w.shared.outstanding := by
  rw [← w.letOthersAct_outstanding S none]
  simp only [collect] at h
  split at h
  · simp at h
  · rename_i hr
    obtain ⟨-, rfl⟩ := by simpa using h
    simp [record, Shared.outstanding, hr, Nat.add_assoc]

theorem startLookup_cases (w : World ω) (l : Lookup) :
    (w.inFlight = true ∧ w.startLookup S l = (.error .inFlight, w)) ∨
      w.inFlight = false ∧
        ((∃ code, (w.call S .startThread).1 = .error code ∧
          w.startLookup S l = (.error (.submit code), (w.call S .startThread).2)) ∨
        ((w.call S .startThread).1 = .ok () ∧ w.startLookup S l = (.ok (), { (w.call S .startThread).2 with
          shared := { (w.call S .startThread).2.shared with
            running := (w.call S .startThread).2.shared.running ++ [l] }
          inFlight := true }))) := by
  cases hf : w.inFlight with
  | true => exact .inl ⟨rfl, by rw [startLookup, if_pos hf]⟩
  | false =>
    refine .inr ⟨rfl, ?_⟩
    rw [startLookup, if_neg (by rw [hf]; nofun)]
    cases hc : w.call S .startThread with
    | mk answer world =>
      cases answer with
      | error code => exact .inl ⟨code, rfl, rfl⟩
      | ok _ => exact .inr ⟨rfl, rfl⟩

end World

end IrcLink
