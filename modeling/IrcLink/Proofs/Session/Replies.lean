import IrcLink.Proofs.Session.Outbound

/-!
The conversation over one link after another. Each begins with the first nick, and what is sent after the greeting is
the answers to the messages that have come, in their order, whatever calls they were spread over.
-/

namespace IrcLink

open Bytes

namespace Session

variable {σ υ : Type}

/-- What a call had to send, and the ring it was to be put into, before and after. -/
structure Sending where
  sent : List Command
  before : Ring
  after : Ring

def Sending.Done (c : Sending) : Prop :=
  ∃ kept dropped, Fits c.before.free c.sent kept dropped ∧ c.after.WellFormed ∧
    c.after.toList = c.before.toList ++ kept.flatMap Command.encode

theorem writeOutbox_done (s : Session σ υ) {write : Ring} (hw : write.WellFormed) :
    (⟨s.ctx.outbox, write, (s.writeOutbox write).2⟩ : Sending).Done := by
  have hholds : write.Holds write.capacity write.toList := ⟨hw, rfl, rfl⟩
  obtain ⟨kept, dropped, hf, -, hwrite⟩ := writeLines_fits { s.ctx with outbox := [] } hholds s.ctx.outbox
  refine ⟨kept, dropped, ?_, hwrite.wellFormed, hwrite.toList_eq⟩
  rwa [hholds.free_eq]

def greetSending (s : Session σ υ) (write : Ring) : Sending :=
  ⟨((s.send (.nick s.ctx.nick)).send (.user s.ctx.identity.login s.ctx.identity.name)).ctx.outbox, write, (s.greet write).2⟩

/-- Processes a ring, and says what the handlers had sent when all of it had been looked through. -/
def processSending (s : Session σ υ) (b : Buffers) : Except Fault (Session σ υ × Sending) := do
  let (looked, _, _) ← s.processAll b.read
  let (t, b', _) ← s.process b
  return (t, ⟨looked.ctx.outbox, b.write, b'.write⟩)

def converseSending (s : Session σ υ) : List Buffers → Except Fault (Session σ υ × List Sending)
  | [] => .ok (s, [])
  | b :: bs => do
    let (t, c) ← s.processSending b
    let (last, cs) ← converseSending t bs
    return (last, c :: cs)

structure Link where
  write : Ring
  calls : List Buffers

namespace Link

def InOrder (l : Link) : Prop := l.write.WellFormed ∧ ∀ b ∈ l.calls, b.read.WellFormed ∧ b.write.WellFormed

def stream (l : Link) : Bytes := l.calls.flatMap (·.read.toList)

def messages (l : Link) : List Message := (lines l.stream).1.filterMap Message.ofTerminated?

end Link

/-- Is told of links made and lost, and what came in between: the last session, and for each link what was sent. -/
def live (s : Session σ υ) : List Link → Except Fault (Session σ υ × List (List Sending))
  | [] => .ok (s, [])
  | l :: ls => do
    let (t, cs) ← (s.greet l.write).1.converseSending l.calls
    let (last, rest) ← live t.reset ls
    return (last, (s.greetSending l.write :: cs) :: rest)

variable {config : Config} {s t : Session Unit Unit}

/-- What a session of this configuration is after so many refusals, with the beginning of a line that has come. -/
structure Between (config : Config) (refused : Nat) (tail : Bytes) (s : Session Unit Unit) : Prop where
  of : Of config s
  attempt : s.ctx.attempt = refused
  outbox : s.ctx.outbox = []
  waits : s.Waits tail
  unended : lf ∉ tail

theorem between_create (config : Config) : Between config 0 [] (create config ()) :=
  ⟨.create config, rfl, rfl, .inl ⟨rfl, rfl, Nat.zero_le _⟩, List.not_mem_nil⟩

theorem Of.between_reset (h : Of config s) : Between config 0 [] s.reset :=
  ⟨⟨h.dispatcher, h.identity, h.channels⟩, rfl, rfl, .inl ⟨rfl, rfl, Nat.zero_le _⟩, List.not_mem_nil⟩

namespace Between

variable {refused : Nat} {tail : Bytes}

theorem reset (h : Between config refused tail s) : Between config 0 [] s.reset := h.of.between_reset

theorem greet (h : Between config refused tail s) (write : Ring) : Between config refused tail (s.greet write).1 := by
  obtain ⟨notices, hn⟩ := writeOutbox_session
    ((s.send (.nick s.ctx.nick)).send (.user s.ctx.identity.login s.ctx.identity.name)) write
  have hof := h.of.greet write
  change (s.greet write).1 = _ at hn
  rw [hn] at hof ⊢
  exact ⟨hof, h.attempt, rfl, h.waits, h.unended⟩

theorem greetSending (h : Between config refused tail s) {write : Ring} (hw : write.WellFormed) :
    (s.greetSending write).sent = greeting config refused ∧ (s.greetSending write).Done := by
  refine ⟨?_, writeOutbox_done _ hw⟩
  rw [greeting, ← h.attempt, ← nick_eq h.of, ← h.of.identity]
  change (s.ctx.outbox ++ _) ++ _ = _
  rw [h.outbox]
  rfl

theorem process (h : Between config refused tail s) {b : Buffers} (hr : b.read.WellFormed) (hw : b.write.WellFormed) :
    ∃ t c b' kept, s.process b = .ok (t, b', kept.filterMap Message.ofTerminated?) ∧ s.processSending b = .ok (t, c) ∧
      c.Done ∧ c.after = b'.write ∧ c.sent = answers config refused (kept.filterMap Message.ofTerminated?) ∧
      b'.read.isEmpty = true ∧ Kept (lines (tail ++ b.read.toList)).1 kept ∧
      Between config (refused + refusals (kept.filterMap Message.ofTerminated?)) (lines (tail ++ b.read.toList)).2 t := by
  obtain ⟨u, read, kept, hp, hread, hkept, hu⟩ := processAll_lines h.waits h.unended ⟨hr, rfl, rfl⟩
  have hscanned := processAll_scanned hp
  have hanswered := hscanned.answered h.of
  obtain ⟨notices, hn⟩ := u.writeOutbox_session b.write
  refine ⟨(u.writeOutbox b.write).1, ⟨u.ctx.outbox, b.write, (u.writeOutbox b.write).2⟩,
    ⟨read, (u.writeOutbox b.write).2⟩, kept, ?_, ?_, writeOutbox_done u hw, rfl, ?_, hread.isEmpty_iff.mpr rfl, hkept, ?_⟩
  · rw [Session.process, hp]
    rfl
  · rw [Session.processSending, Session.process, hp]
    rfl
  · rw [hanswered.outbox, h.outbox, List.nil_append, h.attempt]
  · have hof := (h.of.heard hscanned.heard).writeOutbox b.write
    rw [hn] at hof ⊢
    exact ⟨hof, by rw [← h.attempt]; exact hanswered.attempt, rfl, hu, (lines_join _).2.2⟩

theorem of_process (h : Between config refused tail s) {b b' : Buffers} {ms : List Message} {c : Sending}
    (hr : b.read.WellFormed) (hw : b.write.WellFormed) (hp : s.process b = .ok (t, b', ms))
    (hc : s.processSending b = .ok (t, c)) :
    c.sent = answers config refused ms ∧ ∃ tail', Between config (refused + refusals ms) tail' t := by
  obtain ⟨t', c', b'', kept, hp', hc', -, -, hsent, -, -, ht⟩ := h.process hr hw
  rw [hp] at hp'
  rw [hc] at hc'
  obtain ⟨rfl, -, rfl⟩ := by simpa using hp'
  obtain ⟨-, rfl⟩ := by simpa using hc'
  exact ⟨hsent, _, ht⟩

theorem processSending (h : Between config refused tail s) {b : Buffers} (hr : b.read.WellFormed)
    (hw : b.write.WellFormed) (hshort : ∀ line ∈ (lines (tail ++ b.read.toList)).1, line.length ≤ maxPending) :
    ∃ t c, s.processSending b = .ok (t, c) ∧ c.Done ∧
      c.sent = answers config refused ((lines (tail ++ b.read.toList)).1.filterMap Message.ofTerminated?) ∧
      Between config (refused + refusals ((lines (tail ++ b.read.toList)).1.filterMap Message.ofTerminated?))
        (lines (tail ++ b.read.toList)).2 t := by
  obtain ⟨t, c, _, kept, -, hs, hdone, -, hsent, -, hkept, ht⟩ := h.process hr hw
  obtain rfl := hkept.eq_of_short hshort
  exact ⟨t, c, hs, hdone, hsent, ht⟩

theorem converseSending (h : Between config refused tail s) (bs : List Buffers)
    (hbs : ∀ b ∈ bs, b.read.WellFormed ∧ b.write.WellFormed)
    (hshort : ∀ line ∈ (lines (tail ++ bs.flatMap (·.read.toList))).1, line.length ≤ maxPending) :
    ∃ t cs refused' tail', s.converseSending bs = .ok (t, cs) ∧ Between config refused' tail' t ∧ (∀ c ∈ cs, c.Done) ∧
      cs.flatMap (·.sent) =
        answers config refused ((lines (tail ++ bs.flatMap (·.read.toList))).1.filterMap Message.ofTerminated?) := by
  induction bs generalizing s refused tail with
  | nil =>
    refine ⟨s, [], refused, tail, rfl, h, nofun, ?_⟩
    rw [List.flatMap_nil, List.flatMap_nil, List.append_nil, lines_of_notMem h.unended]
    rfl
  | cons b bs ih =>
    obtain ⟨⟨hr, hw⟩, hrest⟩ := List.forall_mem_cons.mp hbs
    rw [List.flatMap_cons, ← List.append_assoc, lines_append] at hshort ⊢
    dsimp only at hshort ⊢
    obtain ⟨hfirst, hlater⟩ := List.forall_mem_append.mp hshort
    obtain ⟨t, c, hp, hdone, hsent, ht⟩ := h.processSending hr hw hfirst
    obtain ⟨last, cs, refused', tail', hc, hlast, hall, hm⟩ := ih ht hrest hlater
    refine ⟨last, c :: cs, refused', tail', ?_, hlast, List.forall_mem_cons.mpr ⟨hdone, hall⟩, ?_⟩
    · rw [Session.converseSending, hp]
      dsimp only [bind, Except.bind]
      rw [hc]
      rfl
    · rw [List.flatMap_cons, hsent, hm, List.filterMap_append, answers_append]

theorem live (h : Between config 0 [] s) (ls : List Link) (hls : ∀ l ∈ ls, l.InOrder)
    (hshort : ∀ l ∈ ls, ∀ line ∈ (lines l.stream).1, line.length ≤ maxPending) :
    ∃ last cs, s.live ls = .ok (last, cs) ∧ Between config 0 [] last ∧ (∀ c ∈ cs.flatten, c.Done) ∧
      cs.map (·.flatMap (·.sent)) = ls.map fun l => greeting config 0 ++ answers config 0 l.messages := by
  induction ls generalizing s with
  | nil => exact ⟨s, [], rfl, h, nofun, rfl⟩
  | cons l ls ih =>
    obtain ⟨⟨hw, hcalls⟩, hrest⟩ := List.forall_mem_cons.mp hls
    obtain ⟨hfirst, hlater⟩ := List.forall_mem_cons.mp hshort
    obtain ⟨t, cs, refused, tail, hc, ht, hdone, hsent⟩ := (h.greet l.write).converseSending l.calls hcalls hfirst
    obtain ⟨hgreeting, hgreet⟩ := h.greetSending hw
    obtain ⟨last, rest, hl, hlast, hall, hm⟩ := ih ht.reset hrest hlater
    refine ⟨last, (s.greetSending l.write :: cs) :: rest, ?_, hlast, ?_, ?_⟩
    · rw [Session.live, hc]
      dsimp only [bind, Except.bind]
      rw [hl]
      rfl
    · rw [List.flatten_cons]
      exact List.forall_mem_append.mpr ⟨List.forall_mem_cons.mpr ⟨hgreet, hdone⟩, hall⟩
    · rw [List.map_cons, List.map_cons, hm, List.flatMap_cons, hgreeting, hsent]
      rfl

end Between

theorem replies_follow_the_rules (config : Config) (hn : config.identity.nicks ≠ []) (ls : List Link)
    (hls : ∀ l ∈ ls, l.InOrder) (hshort : ∀ l ∈ ls, ∀ line ∈ (lines l.stream).1, line.length ≤ maxPending) :
    ∃ last cs, (create config () : Session Unit Unit).live ls = .ok (last, cs) ∧
      -- over each link the greeting, then what each message asks for
      cs.map (·.flatMap (·.sent)) = ls.map (fun l => greeting config 0 ++ answers config 0 l.messages) ∧
      -- each call has put what there was room for into the ring
      (∀ c ∈ cs.flatten, c.Done) ∧
      -- no refusal is remembered when a link is lost
      last.ctx.attempt = 0 ∧
      ∀ k, ∃ n, config.identity.nicks[k % config.identity.nicks.length]? = some n ∧
        (nickAfter config k).toList = n.toList ++ List.replicate (k / config.identity.nicks.length) '_' := by
  obtain ⟨last, cs, hl, hlast, hdone, hsent⟩ := (between_create config).live ls hls hshort
  refine ⟨last, cs, hl, hsent, hdone, hlast.attempt, fun k => ?_⟩
  obtain ⟨n, -, hk, ht⟩ := toList_nickAfter hn k
  exact ⟨n, hk, ht⟩

def loaded (data : Bytes) : Ring := ⟨(data ++ [0]).toArray, 0, data.length, data.length⟩

theorem loaded_wellFormed (data : Bytes) : (loaded data).WellFormed := by
  have hc : (loaded data).capacity = data.length + 1 := by simp [Ring.capacity, loaded]
  refine ⟨?_, ?_, ?_, ?_⟩
  all_goals rw [hc]
  · exact Nat.zero_lt_succ _
  · exact Nat.lt_succ_self _
  · exact Nat.le_succ _
  · exact (congrArg (· % _) (Nat.zero_add _)).trans (Nat.mod_eq_of_lt (Nat.lt_succ_self _))

def twoLinks : List Link :=
  [⟨loaded [], [⟨loaded (ofText "PING a  b\r\n43"), loaded []⟩, ⟨loaded (ofText "3 *\r\n:irc 433 *\n"), loaded []⟩]⟩,
    ⟨loaded [], [⟨loaded (ofText "433\nping a\n:irc 004 bot\n"), loaded []⟩]⟩]

theorem replies_follow_the_rules_over_two_links :
    ∃ last cs, (create terse () : Session Unit Unit).live twoLinks = .ok (last, cs) ∧
      cs.map (·.flatMap (·.sent)) =
        [[.nick "bot", .user "ebot" "Example Bot", .pong (ofText "a  b"), .nick "bot_", .nick "bot__"],
          [.nick "bot", .user "ebot" "Example Bot", .nick "bot_", .join "#c" (some "k")]] := by
  have hls : ∀ l ∈ twoLinks, l.InOrder := by
    simp only [twoLinks, List.forall_mem_cons, Link.InOrder, loaded_wellFormed, and_self, List.not_mem_nil, false_implies,
      implies_true]
  obtain ⟨last, cs, hl, hsent, -⟩ := replies_follow_the_rules terse (by decide) twoLinks hls (by decide +kernel)
  exact ⟨last, cs, hl, hsent.trans (by decide +kernel)⟩

end Session

end IrcLink
