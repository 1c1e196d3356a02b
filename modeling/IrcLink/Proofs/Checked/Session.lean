import IrcLink.Proofs.Checked.Message
import IrcLink.Proofs.Checked.Ring
import IrcLink.Proofs.Session.Outbound

/-!
The conversation goes through whatever was received. A line that makes no sense was found by its end, which it is
skipped to; a nick is looked up in a list that is not empty; and lines are only sent if there is room for them.
-/

namespace IrcLink.Checked.Session

open IrcLink.Session Bytes

def nick (ctx : Context Unit) : Except Panic String :=
  let nicks := ctx.identity.nicks
  if nicks = [] then return ""
  else return (← element nicks (← remainder ctx.attempt nicks.length)) ++
    "".pushn '_' (← quotient ctx.attempt nicks.length)

def onPing (ctx : Context Unit) (m : Message) : Except Panic (Context Unit) := return ctx.onPing m

def onRegistered (ctx : Context Unit) (_ : Message) : Except Panic (Context Unit) :=
  return ctx.channels.foldl (fun ctx c => ctx.send (.join c.name c.key)) (ctx.note (.registered (← nick ctx)))

def onNickInUse (ctx : Context Unit) (_ : Message) : Except Panic (Context Unit) := do
  let taken ← nick ctx
  let next := ctx.nextNick
  let offered ← nick next
  return (next.note (.nickInUse taken offered)).send (.nick offered)

def onError (ctx : Context Unit) (m : Message) : Except Panic (Context Unit) :=
  return ctx.note (.linkClosed (Utf8.decodeLossy ((← Message.trailing m).getD m.params)))

def handlers : List (Bytes × (Context Unit → Message → Except Panic (Context Unit))) :=
  [(ofText "PING", onPing), (ofText "004", onRegistered), (ofText "433", onNickInUse), (ofText "ERROR", onError)]

def dispatch (s : Session Unit Unit) (m : Message) : Except Panic (Session Unit Unit) :=
  match handlers.lookup m.command with
  | none => return s
  | some h => return { s with ctx := ← h s.ctx m }

variable {config : Config} {s t : Session Unit Unit} {read write : Ring}

theorem nick_eq (ctx : Context Unit) : nick ctx = .ok ctx.nick := by
  rw [nick, Context.nick]
  by_cases hn : ctx.identity.nicks = []
  · rw [if_pos hn, dif_pos (List.length_eq_zero_iff.mpr hn)]
    rfl
  · have hlen : ctx.identity.nicks.length ≠ 0 := mt List.length_eq_zero_iff.mp hn
    rw [if_neg hn, dif_neg hlen, remainder_eq_ok hlen, quotient_eq_ok hlen]
    dsimp only [bind, Except.bind]
    rw [element_eq_ok (Nat.mod_lt _ (Nat.pos_of_ne_zero hlen))]
    rfl

theorem onRegistered_eq (ctx : Context Unit) (m : Message) : onRegistered ctx m = .ok (ctx.onRegistered m) := by
  rw [onRegistered, nick_eq]
  rfl

theorem onNickInUse_eq (ctx : Context Unit) (m : Message) : onNickInUse ctx m = .ok (ctx.onNickInUse m) := by
  rw [onNickInUse, nick_eq]
  dsimp only [bind, Except.bind]
  rw [nick_eq]
  rfl

theorem onError_eq (ctx : Context Unit) (m : Message) : onError ctx m = .ok (ctx.onError m) := by
  rw [onError, Message.trailing_eq]
  rfl

theorem dispatch_eq (h : Of config s) (m : Message) : dispatch s m = .ok (s.dispatch m) := by
  have hctx := dispatch_ctx h m
  have hrest : s.dispatch m = { s with ctx := (s.dispatch m).ctx } := by
    rw [IrcLink.Session.dispatch]
    dsimp only
    rw [dispatch_dispatcher]
  rw [hrest, hctx, dispatch, handlers]
  simp only [lookup_cons_ite, List.lookup_nil]
  split_ifs with hping hwelcome hrefused hclosed
  · rfl
  · dsimp only
    rw [onRegistered_eq]
    rfl
  · dsimp only
    rw [onNickInUse_eq]
    rfl
  · dsimp only
    rw [onError_eq]
    rfl
  · rfl

def advance (n : Nat) (pending : Bytes) : Except Panic Bytes :=
  if n ≤ pending.length then return pending.drop n else throw (.broken (.skipBeyond n pending.length))

def resume (s : Session Unit Unit) : Except Panic (Option (Session Unit Unit)) :=
  if s.discarding then
    match s.pending.findIdx? (· = lf) with
    | none => return none
    | some stop => return some { s with pending := ← advance (stop + 1) s.pending, discarding := false }
  else return some s

/-- Skips a line that is no message. Its end is looked for once more, and to fall back on the end of the text is told
beforehand where that is. -/
def skipLine (s : Session Unit Unit) : Except Panic (Scan Unit Unit) := do
  let stop := (s.pending.findIdx? (· = lf)).getD (← sub s.pending.length 1)
  let _ ← slice s.pending 0 stop
  return .line { s with pending := ← advance (stop + 1) s.pending } none

def scan (s : Session Unit Unit) : Except Panic (Scan Unit Unit) := do
  match ← resume s with
  | none => return .rest { s with pending := [] }
  | some s =>
    match ← Message.parse s.pending with
    | .ok (m, n) =>
      let t ← dispatch s m
      return .line { t with pending := ← advance n t.pending } (some m)
    | .error .invalid => skipLine s
    | .error .incomplete =>
      if maxPending < s.pending.length then
        return .rest { s with
          ctx := s.ctx.note (.oversizeLine s.pending.length), pending := [], discarding := true }
      else return .rest s

def scanAll (s : Session Unit Unit) : Except Panic (Session Unit Unit × List Message) := do
  match ← scan s with
  | .rest t => return (t, [])
  | .line t m =>
    if _h : t.pending.length < s.pending.length then
      let (last, ms) ← scanAll t
      return (last, m.toList ++ ms)
    else throw .endless
termination_by s.pending.length

def processSpan (s : Session Unit Unit) (read : Ring) :
    Except Panic (Option (Session Unit Unit × Ring × List Message)) :=
  if read.isEmpty then return none
  else do
    let span ← Ring.readSpan read
    let read ← Ring.consume read span.length
    let (s, ms) ← scanAll { s with pending := s.pending ++ span }
    return some (s, read, ms)

def processAll (s : Session Unit Unit) (read : Ring) : Except Panic (Session Unit Unit × Ring × List Message) := do
  match ← processSpan s read with
  | none => return (s, read, [])
  | some (t, read', ms) =>
    if _h : read'.len < read.len then
      let (last, ring, more) ← processAll t read'
      return (last, ring, ms ++ more)
    else throw .endless
termination_by read.len

theorem advance_eq (n : Nat) (pending : Bytes) : advance n pending = lift (skip n pending) := by
  rw [advance, skip, List.length_take]
  by_cases hn : n ≤ pending.length
  · rw [if_pos hn, if_pos (Nat.min_eq_left hn)]
    rfl
  · rw [if_neg hn, if_neg (by omega)]
    rfl

theorem resume_eq (s : Session Unit Unit) : resume s = .ok s.resume := by
  rw [resume, IrcLink.Session.resume, splitAt?_eq_findIdx?]
  split
  · cases hi : s.pending.findIdx? (· = lf) with
    | none => rfl
    | some stop =>
      have hstop : stop + 1 ≤ s.pending.length := Message.lt_of_findIdx? hi
      dsimp only [advance]
      rw [if_pos hstop]
      rfl
  · rfl

theorem skipLine_eq (h : IrcLink.Message.parse s.pending = .error .invalid) :
    skipLine s = lift ((skip (firstLineLength s.pending) s.pending).map fun pending => .line { s with pending } none) := by
  have hsplit := splitAt?_eq_findIdx? lf s.pending
  cases hi : s.pending.findIdx? (· = lf) with
  | none =>
    rw [hi] at hsplit
    rw [IrcLink.Message.parse_of_none hsplit] at h
    exact absurd h nofun
  | some stop =>
    have hlt := Message.lt_of_findIdx? hi
    rw [hi] at hsplit
    have hlen : firstLineLength s.pending = stop + 1 := by
      rw [firstLineLength, hsplit]
      dsimp only [Option.map_some]
      rw [List.length_take_of_le (Nat.le_of_lt hlt)]
    rw [skipLine, hi, sub_eq_ok (by omega), hlen]
    dsimp only [bind, Except.bind, Option.getD_some]
    rw [slice_front (Nat.le_of_lt hlt)]
    exact map_lift (advance_eq _ _) fun pending => Scan.line { s with pending } none

theorem scan_eq (h : Of config s) : scan s = lift s.scan := by
  rw [scan, IrcLink.Session.scan, resume_eq]
  cases hr : s.resume with
  | none => rfl
  | some t =>
    have ht : Of config t := h.heard (resume_scanned hr).heard
    dsimp only [bind, Except.bind]
    rw [Message.parse_eq]
    dsimp only
    cases hp : IrcLink.Message.parse t.pending with
    | error e =>
      cases e with
      | invalid => exact skipLine_eq hp
      | incomplete =>
        dsimp only
        split <;> rfl
    | ok p =>
      obtain ⟨m, n⟩ := p
      dsimp only
      rw [dispatch_eq ht]
      exact map_lift (advance_eq _ _) fun pending => Scan.line { t.dispatch m with pending } (some m)

theorem scanAll_eq (h : Of config s) : scanAll s = lift s.scanAll := by
  induction s using IrcLink.Session.scanAll.induct with
  | case1 s f hs => 
    rw [scanAll, scan_eq h, hs, IrcLink.Session.scanAll, hs]
    rfl
  | case2 s t hs =>
    rw [scanAll, scan_eq h, hs, scanAll_of_rest hs]
    rfl
  | case3 s t m hs ih =>
    have ht : Of config t := h.heard (scan_scanned hs).heard
    rw [scanAll, scan_eq h, hs, scanAll_of_line hs]
    dsimp only [bind, Except.bind, lift_ok]
    rw [dif_pos (scan_length hs)]
    exact map_lift (ih ht) fun p => (p.1, m.toList ++ p.2)

theorem processSpan_eq (h : Of config s) (hr : read.WellFormed) : processSpan s read = lift (s.processSpan read) := by
  rw [processSpan, IrcLink.Session.processSpan]
  by_cases he : read.isEmpty
  · have hspan : read.readSpan = [] := by
      rw [(hr.holds_of_isEmpty he).readSpan_eq, List.take_nil]
    rw [if_pos he, hspan]
    rfl
  · have hspan : read.readSpan ≠ [] := by
      rw [← List.length_pos_iff, Ring.readSpan_length]
      have hz := Ring.readSpanLength_eq_zero hr
      have hlen : read.len ≠ 0 := by simpa [IrcLink.Ring.isEmpty] using he
      omega
    have hof : Of config { s with pending := s.pending ++ read.readSpan } := ⟨h.dispatcher, h.identity, h.channels⟩
    rw [if_neg he, Ring.readSpan_eq hr]
    dsimp only
    rw [if_neg hspan]
    exact bind_lift (Ring.consume_eq hr _) fun r _ => map_lift (scanAll_eq hof) fun p => some (p.1, r, p.2)

theorem processAll_eq (h : Of config s) (hr : read.WellFormed) : processAll s read = lift (s.processAll read) := by
  induction s, read using IrcLink.Session.processAll.induct with
  | case1 s read f hs =>
    rw [processAll, processSpan_eq h hr, hs, IrcLink.Session.processAll, hs]
    rfl
  | case2 s read hs =>
    rw [processAll, processSpan_eq h hr, hs, IrcLink.Session.processAll, hs]
    rfl
  | case3 s read t read' ms hs ih =>
    have ht : Of config t := h.heard (processSpan_scanned hs).heard
    obtain ⟨q, hr'⟩ := processSpan_holds ⟨_, hr, rfl, rfl⟩ hs
    rw [processAll, processSpan_eq h hr, hs, IrcLink.Session.processAll, hs]
    dsimp only [bind, Except.bind, lift_ok]
    rw [dif_pos (processSpan_len hs)]
    exact map_lift (ih ht hr'.wellFormed) fun p => (p.1, p.2.1, ms ++ p.2.2)

def writeLine (ctx : Context Unit) (write : Ring) (c : Command) : Except Panic (Context Unit × Ring) := do
  let line := c.encode
  if (← Ring.free write) < line.length then return (ctx.note (.lineDropped line.length (← Ring.free write)), write)
  else return (ctx, (← Ring.put write line).1)

def writeLines (ctx : Context Unit) (write : Ring) : List Command → Except Panic (Context Unit × Ring)
  | [] => return (ctx, write)
  | c :: cs => do
    let (ctx, write) ← writeLine ctx write c
    writeLines ctx write cs

def writeOutbox (s : Session Unit Unit) (write : Ring) : Except Panic (Session Unit Unit × Ring) := do
  let (ctx, write) ← writeLines { s.ctx with outbox := [] } write s.ctx.outbox
  return ({ s with ctx }, write)

def greet (s : Session Unit Unit) (write : Ring) : Except Panic (Session Unit Unit × Ring) := do
  let { login, name, .. } := s.ctx.identity
  writeOutbox ((s.send (.nick (← nick s.ctx))).send (.user login name)) write

def quit (s : Session Unit Unit) (reason : Option String) (write : Ring) : Except Panic (Session Unit Unit × Ring) :=
  writeOutbox (s.send (.quit reason)) write

def process (s : Session Unit Unit) (b : Buffers) : Except Panic (Session Unit Unit × Buffers × List Message) := do
  let (s, read, ms) ← processAll s b.read
  let (s, write) ← writeOutbox s b.write
  return (s, ⟨read, write⟩, ms)

theorem writeLine_eq (ctx : Context Unit) (hw : write.WellFormed) (c : Command) :
    writeLine ctx write c = .ok (IrcLink.Session.writeLine ctx write c) := by
  rw [writeLine, Ring.free_eq hw, IrcLink.Session.writeLine]
  dsimp only [bind, Except.bind]
  split
  · rfl
  · rw [Ring.put_eq hw]
    rfl

theorem writeLines_eq (ctx : Context Unit) (hw : write.WellFormed) (cs : List Command) :
    writeLines ctx write cs = .ok (IrcLink.Session.writeLines ctx write cs) := by
  induction cs generalizing ctx write with
  | nil => rfl
  | cons c cs ih =>
    rw [writeLines, writeLine_eq ctx hw]
    obtain ⟨q, hw'⟩ := writeLine_holds ctx c ⟨_, hw, rfl, rfl⟩
    exact ih _ hw'.wellFormed

theorem writeOutbox_eq (s : Session Unit Unit) (hw : write.WellFormed) :
    writeOutbox s write = .ok (s.writeOutbox write) := by
  rw [writeOutbox, writeLines_eq _ hw]
  rfl

theorem greet_eq (s : Session Unit Unit) (hw : write.WellFormed) : greet s write = .ok (s.greet write) := by
  rw [greet, nick_eq]
  exact writeOutbox_eq _ hw

theorem quit_eq (s : Session Unit Unit) (reason : Option String) (hw : write.WellFormed) :
    quit s reason write = .ok (s.quit reason write) := writeOutbox_eq _ hw

theorem process_eq {b : Buffers} (h : Of config s) (hr : b.read.WellFormed) (hw : b.write.WellFormed) :
    process s b = lift (s.process b) := by
  refine bind_lift (processAll_eq h hr) fun p hp => ?_
  obtain ⟨t, read, ms⟩ := p
  dsimp only
  rw [writeOutbox_eq t hw]
  rfl

end IrcLink.Checked.Session
