import IrcLink.Command
import IrcLink.Config
import IrcLink.Dispatcher
import IrcLink.Notice
import IrcLink.Ring
import IrcLink.Text.Utf8

/-!
The conversation over one link. Received bytes are gathered until a line is complete; each complete line goes to the
handlers of its command, and what they send is written after all lines that have come in. A line that grows too long
before it ends is dropped up to its end.
-/

namespace IrcLink

structure Context (υ : Type) where
  identity : Identity
  channels : List Channel
  /-- How many nicks were refused on this link. -/
  attempt : Nat := 0
  outbox : List Command := []
  notices : List Notice := []
  user : υ

namespace Context

variable {υ : Type} (ctx : Context υ)

def send (c : Command) : Context υ := { ctx with outbox := ctx.outbox ++ [c] }

def note (n : Notice) : Context υ := { ctx with notices := ctx.notices ++ [n] }

/-- The nick to register with: the list in order, and for each full pass through it one more underscore. -/
def nick : String :=
  let nicks := ctx.identity.nicks
  if h : nicks.length = 0 then ""
  else
    nicks.get ⟨ctx.attempt % nicks.length, Nat.mod_lt _ (Nat.pos_of_ne_zero h)⟩ ++
      "".pushn '_' (ctx.attempt / nicks.length)

def nextNick : Context υ := { ctx with attempt := ctx.attempt + 1 }

def reset : Context υ := { ctx with attempt := 0, outbox := [] }

/-- A server that does not get its own parameters back takes the link for dead. -/
def onPing (m : Message) : Context υ := ctx.send (.pong m.params)

def onRegistered (_ : Message) : Context υ :=
  ctx.channels.foldl (fun ctx c => ctx.send (.join c.name c.key)) (ctx.note (.registered ctx.nick))

def onNickInUse (_ : Message) : Context υ :=
  let next := ctx.nextNick
  (next.note (.nickInUse ctx.nick next.nick)).send (.nick next.nick)

def onError (m : Message) : Context υ :=
  ctx.note (.linkClosed (Utf8.decodeLossy (m.trailing.getD m.params)))

end Context

structure Session (σ υ : Type) where
  ctx : Context υ
  dispatcher : Dispatcher σ (Context υ)
  pending : Bytes := []
  /-- In a line that is being dropped. -/
  discarding : Bool := false

namespace Session

variable {σ υ : Type}

def maxPending : Nat := 8 * Command.maxLineLength

def register (s : Session σ υ) (command : Bytes) (h : Handler σ (Context υ)) : Session σ υ :=
  { s with dispatcher := s.dispatcher.register command h }

def create [Inhabited σ] (config : Config) (user : υ) : Session σ υ :=
  let bare : Session σ υ := {
    ctx := { identity := config.identity, channels := config.channels, user }
    dispatcher := {} }
  bare.register (.ofText "PING") (.stateless Context.onPing)
    |>.register (.ofText "004") (.stateless Context.onRegistered)
    |>.register (.ofText "433") (.stateless Context.onNickInUse)
    |>.register (.ofText "ERROR") (.stateless Context.onError)

def writeLine (ctx : Context υ) (write : Ring) (c : Command) : Context υ × Ring :=
  let line := c.encode
  if write.free < line.length then (ctx.note (.lineDropped line.length write.free), write)
  else (ctx, (write.put line).1)

def writeLines (ctx : Context υ) (write : Ring) : List Command → Context υ × Ring
  | [] => (ctx, write)
  | c :: cs =>
    let (ctx, write) := writeLine ctx write c
    writeLines ctx write cs

def writeOutbox (s : Session σ υ) (write : Ring) : Session σ υ × Ring :=
  let (ctx, write) := writeLines { s.ctx with outbox := [] } write s.ctx.outbox
  ({ s with ctx }, write)

def send (s : Session σ υ) (c : Command) : Session σ υ := { s with ctx := s.ctx.send c }

def greet (s : Session σ υ) (write : Ring) : Session σ υ × Ring :=
  let { login, name, .. } := s.ctx.identity
  ((s.send (.nick s.ctx.nick)).send (.user login name)).writeOutbox write

def reset (s : Session σ υ) : Session σ υ :=
  { s with ctx := s.ctx.reset, pending := [], discarding := false }

def quit (s : Session σ υ) (reason : Option String) (write : Ring) : Session σ υ × Ring :=
  (s.send (.quit reason)).writeOutbox write

def skip (n : Nat) (pending : Bytes) : Except Fault Bytes :=
  if (pending.take n).length = n then .ok (pending.drop n) else .error (.skipBeyond n pending.length)

def resume (s : Session σ υ) : Option (Session σ υ) :=
  if s.discarding then
    (Bytes.splitAt? Bytes.lf s.pending).map fun (_, rest) => { s with pending := rest, discarding := false }
  else some s

def firstLineLength (pending : Bytes) : Nat :=
  match Bytes.splitAt? Bytes.lf pending with
  | some (line, _) => line.length + 1
  | none => pending.length

/-- Where a look at the received text leads: a line was taken off, and dispatched if it is a message, or there is
none. -/
inductive Scan (σ υ : Type) where
  | line (s : Session σ υ) (dispatched : Option Message)
  | rest (s : Session σ υ)

def dispatch (s : Session σ υ) (m : Message) : Session σ υ :=
  let (dispatcher, ctx, _) := s.dispatcher.dispatch s.ctx m
  { s with dispatcher, ctx }

def scan (s : Session σ υ) : Except Fault (Scan σ υ) :=
  match s.resume with
  | none => .ok (.rest { s with pending := [] })
  | some s =>
    match Message.parse s.pending with
    | .ok (m, n) => (skip n s.pending).map fun pending => .line { s.dispatch m with pending } (some m)
    | .error .invalid => (skip (firstLineLength s.pending) s.pending).map fun pending => .line { s with pending } none
    | .error .incomplete =>
      if maxPending < s.pending.length then
        .ok (.rest { s with
          ctx := s.ctx.note (.oversizeLine s.pending.length), pending := [], discarding := true })
      else .ok (.rest s)

theorem skip_length {n : Nat} {pending rest : Bytes} (h : skip n pending = .ok rest) :
    rest.length + n = pending.length := by
  unfold skip at h
  split at h
  · rename_i hn
    obtain rfl := by simpa using h
    simp only [List.length_take] at hn
    simp only [List.length_drop]; omega
  · simp at h

theorem resume_length {s t : Session σ υ} (h : s.resume = some t) : t.pending.length ≤ s.pending.length := by
  unfold resume at h
  split at h
  · cases hs : Bytes.splitAt? Bytes.lf s.pending with
    | none => simp [hs] at h
    | some p =>
      obtain rfl := by simpa [hs] using h
      obtain ⟨before, after⟩ := p
      have := (Bytes.splitAt?_eq_some hs).1
      simp only [this, List.length_append, List.length_cons]; omega
  · obtain rfl := by simpa using h
    exact Nat.le_refl _

theorem firstLineLength_pos {pending : Bytes} (h : Message.parse pending ≠ .error .incomplete) :
    0 < firstLineLength pending := by
  unfold Message.parse at h
  unfold firstLineLength
  split <;> simp_all

theorem parse_length_pos {pending : Bytes} {m : Message} {n : Nat} (h : Message.parse pending = .ok (m, n)) :
    0 < n := by
  unfold Message.parse at h
  split at h
  · simp at h
  · rename_i line _ _
    cases hl : Message.ofLine (Message.dropCr line) <;> simp [hl, Except.map] at h; omega

/-- Every line taken off is at least its LF long. -/
theorem scan_length {s t : Session σ υ} {k : Option Message} (h : s.scan = .ok (.line t k)) :
    t.pending.length < s.pending.length := by
  unfold scan at h
  split at h
  · simp at h
  · rename_i s' hr
    have hle := resume_length hr
    split at h
    · rename_i m n hp
      have hn := parse_length_pos hp
      cases hk : skip n s'.pending with
      | error f => simp [hk, Except.map] at h
      | ok rest =>
        have := skip_length hk
        obtain ⟨rfl, -⟩ := by simpa [hk, Except.map] using h
        simp only; omega
    · rename_i hp
      have hn : 0 < firstLineLength s'.pending := firstLineLength_pos (by simp [hp])
      cases hk : skip (firstLineLength s'.pending) s'.pending with
      | error f => simp [hk, Except.map] at h
      | ok rest =>
        have := skip_length hk
        obtain ⟨rfl, -⟩ := by simpa [hk, Except.map] using h
        simp only; omega
    · split at h <;> simp at h

def scanAll (s : Session σ υ) : Except Fault (Session σ υ × List Message) :=
  match _h : s.scan with
  | .error f => .error f
  | .ok (.rest t) => .ok (t, [])
  | .ok (.line t m) => (scanAll t).map fun (last, ms) => (last, m.toList ++ ms)
termination_by s.pending.length
decreasing_by exact scan_length _h

def processSpan (s : Session σ υ) (read : Ring) : Except Fault (Option (Session σ υ × Ring × List Message)) :=
  let span := read.readSpan
  if span = [] then .ok none
  else do
    let read ← read.consume span.length
    let (s, ms) ← { s with pending := s.pending ++ span }.scanAll
    return some (s, read, ms)

theorem processSpan_len {s t : Session σ υ} {read read' : Ring} {ms : List Message}
    (h : s.processSpan read = .ok (some (t, read', ms))) : read'.len < read.len := by
  simp only [processSpan] at h
  split at h
  · simp at h
  · rename_i hne
    cases hc : read.consume read.readSpan.length with
    | error f => simp [hc, bind, Except.bind] at h
    | ok r =>
      cases ha : { s with pending := s.pending ++ read.readSpan }.scanAll with
      | error f => simp [hc, ha, bind, Except.bind] at h
      | ok p =>
        obtain ⟨-, rfl, -⟩ := by simpa [hc, ha, bind, Except.bind, pure, Except.pure] using h
        exact Ring.consume_len hc hne

def processAll (s : Session σ υ) (read : Ring) : Except Fault (Session σ υ × Ring × List Message) :=
  match _h : s.processSpan read with
  | .error f => .error f
  | .ok none => .ok (s, read, [])
  | .ok (some (t, read', ms)) => (processAll t read').map fun (last, ring, more) => (last, ring, ms ++ more)
termination_by read.len
decreasing_by exact processSpan_len _h

/-- Dispatches every complete line that was received and writes what the handlers sent. Says which messages were
dispatched. -/
def process (s : Session σ υ) (b : Buffers) : Except Fault (Session σ υ × Buffers × List Message) := do
  let (s, read, ms) ← s.processAll b.read
  let (s, write) := s.writeOutbox b.write
  return (s, ⟨read, write⟩, ms)

end Session

end IrcLink
