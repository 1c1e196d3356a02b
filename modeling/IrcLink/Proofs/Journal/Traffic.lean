import IrcLink.Proofs.Journal.Sights

/-!
The bytes of one stream in a journal, and the steps that leave every stream alone.
-/

namespace IrcLink

namespace Event

/-- A read that fails, or a write of which nothing is accepted. A read fails at the end of the stream as well. After an
interruption the same is tried again, so that is no refusal. -/
def refuses : Event → Bool
  | .call (.read _ _) (.bytes []) => true
  | .call (.read _ _) (.failed _) => true
  | .call (.write _ _) (.accepted 0) => true
  | .call (.write _ _) .wouldBlock => true
  | .call (.write _ _) (.failed _) => true
  | _ => false

def sentOn (s : Socket) (e : Event) : Bytes := if e.stream? = some s then e.sent else []

def receivedOn (s : Socket) (e : Event) : Bytes := if e.stream? = some s then e.received else []

theorem sent_of_stream {e : Event} (h : e.stream? = none) : e.sent = [] := by
  unfold sent
  split
  · simp [stream?] at h
  · rfl

theorem received_of_stream {e : Event} (h : e.stream? = none) : e.received = [] := by
  unfold received
  split
  · simp [stream?] at h
  · rfl

theorem sent_of_sight {e : Event} (h : e.sight? = none) : e.sent = [] := by
  unfold sent
  split
  · simp [sight?] at h
  · rfl

theorem stream_of_foreign {e : Event} (h : e.isForeign = true) : e.stream? = none := by
  cases e with
  | call c a => cases c <;> first | rfl | simp [isForeign] at h
  | _ => rfl

theorem sentOn_of_sent {e : Event} (s : Socket) (h : e.sent = []) : e.sentOn s = [] := by rw [sentOn, h, ite_self]

theorem sentOn_of_sight {s : Socket} {e : Event} (h : e.sight? = none) : e.sentOn s = [] :=
  sentOn_of_sent s (sent_of_sight h)

theorem sentOn_of_foreign {s : Socket} {e : Event} (h : e.isForeign = true) : e.sentOn s = [] :=
  sentOn_of_sent s (sent_of_stream (stream_of_foreign h))

theorem receivedOn_of_foreign {s : Socket} {e : Event} (h : e.isForeign = true) : e.receivedOn s = [] := by
  rw [receivedOn, stream_of_foreign h]; rfl

theorem sentOn_of_only {s : Socket} {e : Event} (h : ∀ s', e.stream? = some s' → s' = s) : e.sentOn s = e.sent := by
  unfold sentOn
  split
  · rfl
  · rename_i hne
    cases hs : e.stream? with
    | none => rw [sent_of_stream hs]
    | some s' =>
      obtain rfl := h s' hs
      exact absurd hs hne

theorem receivedOn_of_only {s : Socket} {e : Event} (h : ∀ s', e.stream? = some s' → s' = s) :
    e.receivedOn s = e.received := by
  unfold receivedOn
  split
  · rfl
  · rename_i hne
    cases hs : e.stream? with
    | none => rw [received_of_stream hs]
    | some s' =>
      obtain rfl := h s' hs
      exact absurd hs hne

end Event

namespace Journal

def sentOn (s : Socket) (j : Journal) : Bytes := j.flatMap (·.event.sentOn s)

def receivedOn (s : Socket) (j : Journal) : Bytes := j.flatMap (·.event.receivedOn s)

theorem sent_own (j : Journal) : j.own.flatMap Event.sent = j.sent :=
  flatMap_own _ (fun _ h => Event.sent_of_stream (Event.stream_of_foreign h)) j

theorem received_own (j : Journal) : j.own.flatMap Event.received = j.received :=
  flatMap_own _ (fun _ h => Event.received_of_stream (Event.stream_of_foreign h)) j

theorem sentOn_own (s : Socket) (j : Journal) : j.own.flatMap (Event.sentOn s) = j.sentOn s :=
  flatMap_own _ (fun _ h => Event.sentOn_of_foreign h) j

theorem receivedOn_own (s : Socket) (j : Journal) : j.own.flatMap (Event.receivedOn s) = j.receivedOn s :=
  flatMap_own _ (fun _ h => Event.receivedOn_of_foreign h) j

end Journal

namespace World

variable {ω : Type} (S : System ω)

def Quiet : World ω → World ω → Prop := Only (·.stream? = none)

theorem Hush.quiet {w w' : World ω} (h : w.Hush w') : w.Quiet w' := h.mono fun _ => Event.stream_of_isSilent

theorem call_quiet {c : Call} (w : World ω) (hc : c ≠ .wake) (hs : ∀ a, (Event.call c a).stream? = none) :
    w.Quiet (w.call S c).2 := .of_does (call_does S w hc) (hs _)

theorem wait_quiet (w : World ω) (capacity : Nat) (timeout : Option Nat) :
    w.Quiet (w.wait S capacity timeout).2 := call_quiet S w nofun fun _ => rfl

theorem takeStop_quiet (w : World ω) : w.Quiet (w.takeStop S).2 := .of_does (takeStop_does S w) rfl

end World

end IrcLink
