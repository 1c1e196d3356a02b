import IrcLink.Proofs.Config.Valid
import IrcLink.Proofs.Message.RoundTrip
import IrcLink.Proofs.Session.Conversation
import IrcLink.Proofs.Session.Handlers

/-!
What goes out. A session of an accepted configuration has an answer to some messages; each answer is a line of its own,
whatever the configuration holds and the server sends. All of a line is put into the ring or nothing of it, depending on
the room that the lines before it have left.
-/

namespace IrcLink

open Bytes

namespace Command

/-- Made of texts that were accepted, or of parameters that were received. -/
def Proper : Command → Prop
  | nick n => Config.isWord n = true
  | user login realname => Config.isWord login = true ∧ Config.isText realname = true
  | join channel key => Config.isWord channel = true ∧ ∀ k ∈ key, Config.isWord k = true
  | pong params => lf ∉ params
  | quit reason => ∀ r ∈ reason, Config.isText r = true

/-- One LF and no other, right after a CR; but for an answer to a `PING`, no control before them. -/
def OneLine (c : Command) : Prop :=
  c.encode = c.body ++ [cr, lf] ∧ lf ∉ c.body ∧
    ((∀ params, c ≠ .pong params) → ∀ b ∈ c.body, 0x20 ≤ b.toNat ∧ b.toNat ≠ 0x7F)

namespace Proper

variable {c : Command}

theorem sendable (h : c.Proper) : c.Sendable := by
  cases c with
  | nick n => exact Config.newline_notMem_of_isText (Config.isText_of_isWord h)
  | user login realname =>
    obtain ⟨hlogin, hname⟩ := h
    exact ⟨⟨Config.newline_notMem_of_isText (Config.isText_of_isWord hlogin), Config.space_notMem_of_isWord hlogin⟩,
      Config.newline_notMem_of_isText hname⟩
  | join channel key =>
    obtain ⟨hchannel, hkey⟩ := h
    refine ⟨⟨Config.newline_notMem_of_isText (Config.isText_of_isWord hchannel),
      Config.space_notMem_of_isWord hchannel⟩, ?_⟩
    intro k hk
    exact Config.newline_notMem_of_isText (Config.isText_of_isWord (hkey k hk))
  | pong params => exact h
  | quit reason =>
    intro r hr
    exact Config.newline_notMem_of_isText (h r hr)

theorem printable (h : c.Proper) (hc : ∀ params, c ≠ .pong params) {b : UInt8} (hb : b ∈ c.body) :
    0x20 ≤ b.toNat ∧ b.toNat ≠ 0x7F := by
  have literal {s : String} (hs : Config.isText s = true) (hb : b ∈ ofText s) : 0x20 ≤ b.toNat ∧ b.toNat ≠ 0x7F :=
    Config.printable_of_isText hs hb
  cases c with
  | nick n =>
    rw [body, List.mem_append] at hb
    obtain hb | hb := hb
    · exact literal (by decide) hb
    · exact literal (Config.isText_of_isWord h) hb
  | user login realname =>
    obtain ⟨hlogin, hname⟩ := h
    simp only [body, List.mem_append] at hb
    obtain ((hb | hb) | hb) | hb := hb
    · exact literal (by decide) hb
    · exact literal (Config.isText_of_isWord hlogin) hb
    · exact literal (by decide) hb
    · exact literal hname hb
  | join channel key =>
    obtain ⟨hchannel, hkey⟩ := h
    simp only [body, List.mem_append] at hb
    obtain (hb | hb) | hb := hb
    · exact literal (by decide) hb
    · exact literal (Config.isText_of_isWord hchannel) hb
    · cases key with
      | none => exact absurd hb List.not_mem_nil
      | some k =>
        obtain rfl | hb := List.mem_cons.mp hb
        · decide
        · exact literal (Config.isText_of_isWord (hkey k rfl)) hb
  | pong params => exact absurd rfl (hc params)
  | quit reason =>
    rw [body, List.mem_append] at hb
    obtain hb | hb := hb
    · exact literal (by decide) hb
    · cases reason with
      | none => exact absurd hb List.not_mem_nil
      | some r =>
        obtain hb | hb := List.mem_append.mp hb
        · exact literal (by decide) hb
        · exact literal (h r rfl) hb

theorem oneLine (h : c.Proper) : c.OneLine := ⟨rfl, h.sendable.lf_notMem_body, fun hc _ hb => h.printable hc hb⟩

end Proper

theorem lines_encoded {cs : List Command} (h : ∀ c ∈ cs, c.Proper) :
    lines (cs.flatMap encode) = (cs.map fun c => c.body ++ [cr], []) := by
  induction cs with
  | nil => exact lines_of_notMem List.not_mem_nil
  | cons c cs ih =>
    obtain ⟨hc, hcs⟩ := List.forall_mem_cons.mp h
    have hline : lf ∉ c.body ++ [cr] := by
      rw [List.mem_append]
      rintro (hm | hm)
      · exact hc.sendable.lf_notMem_body hm
      · exact absurd hm (by decide)
    have he : (c :: cs).flatMap encode = (c.body ++ [cr]) ++ lf :: cs.flatMap encode := by
      rw [List.flatMap_cons, encode, List.append_assoc, List.append_assoc]
      rfl
    rw [he, lines_append_lf hline, ih hcs]
    rfl

end Command

namespace Session

section

variable {σ υ : Type} {write : Ring} {C : Nat} {q : Bytes}

/-- If there is room for so many bytes, these lines are kept of those that are to be sent, and this is said of the
others. What does not fit takes up no room. -/
inductive Fits : Nat → List Command → List Command → List Notice → Prop
  | nothing (free : Nat) : Fits free [] [] []
  | kept {free : Nat} {c : Command} {sent kept : List Command} {dropped : List Notice} (hc : c.encode.length ≤ free)
      (h : Fits (free - c.encode.length) sent kept dropped) : Fits free (c :: sent) (c :: kept) dropped
  | dropped {free : Nat} {c : Command} {sent kept : List Command} {dropped : List Notice} (hc : free < c.encode.length)
      (h : Fits free sent kept dropped) :
      Fits free (c :: sent) kept (.lineDropped c.encode.length free :: dropped)

theorem Fits.sublist {free : Nat} {sent kept : List Command} {dropped : List Notice} (h : Fits free sent kept dropped) :
    kept.Sublist sent := by
  induction h with
  | nothing => exact .refl []
  | kept _ _ ih => exact ih.cons_cons _
  | dropped _ _ ih => exact ih.cons _

theorem Fits.of_le {free : Nat} {c : Command} {sent kept : List Command} {dropped : List Notice}
    (h : Fits free (c :: sent) kept dropped) (hc : c.encode.length ≤ free) :
    ∃ rest, kept = c :: rest ∧ Fits (free - c.encode.length) sent rest dropped := by
  cases h with
  | kept _ h => exact ⟨_, rfl, h⟩
  | dropped hlt => omega

theorem Fits.of_lt {free : Nat} {c : Command} {sent kept : List Command} {dropped : List Notice}
    (h : Fits free (c :: sent) kept dropped) (hc : free < c.encode.length) :
    ∃ rest, dropped = .lineDropped c.encode.length free :: rest ∧ Fits free sent kept rest := by
  cases h with
  | kept hle => omega
  | dropped _ h => exact ⟨_, rfl, h⟩

theorem Fits.of_nil {free : Nat} {kept : List Command} {dropped : List Notice} (h : Fits free [] kept dropped) :
    kept = [] ∧ dropped = [] := by
  cases h
  exact ⟨rfl, rfl⟩

theorem writeLines_fits (ctx : Context υ) (hw : write.Holds C q) (sent : List Command) :
    ∃ kept dropped, Fits (C - q.length) sent kept dropped ∧
      (writeLines ctx write sent).1 = { ctx with notices := ctx.notices ++ dropped } ∧
      (writeLines ctx write sent).2.Holds C (q ++ kept.flatMap Command.encode) := by
  induction sent generalizing ctx write q with
  | nil =>
    refine ⟨[], [], .nothing _, ?_, ?_⟩
    · rw [writeLines, List.append_nil]
    · rwa [writeLines, List.flatMap_nil, List.append_nil]
  | cons c sent ih =>
    have hfree := hw.free_eq
    have hle := hw.length_le
    rw [writeLines, writeLine]
    dsimp only
    by_cases hc : write.free < c.encode.length
    · rw [if_pos hc]
      obtain ⟨kept, dropped, hf, hctx, hwrite⟩ := ih (ctx.note (.lineDropped c.encode.length write.free)) hw
      refine ⟨kept, .lineDropped c.encode.length write.free :: dropped, ?_, ?_, hwrite⟩
      · rw [hfree] at hc ⊢
        exact .dropped hc hf
      · rw [hctx, Context.note, List.append_assoc, List.singleton_append]
    · rw [if_neg hc]
      have hput : (write.put c.encode).1.Holds C (q ++ c.encode) := by
        apply hw.put_of_le
        omega
      obtain ⟨kept, dropped, hf, hctx, hwrite⟩ := ih ctx hput
      refine ⟨c :: kept, dropped, .kept (by omega) ?_, hctx, ?_⟩
      · rwa [List.length_append, ← Nat.sub_sub] at hf
      · rwa [List.flatMap_cons, ← List.append_assoc]

def Flushed (write : Ring) (sent : List Command) (dropped : List Notice) (write' : Ring) : Prop :=
  ∃ kept, Fits write.free sent kept dropped ∧
    write'.WellFormed ∧ write'.toList = write.toList ++ kept.flatMap Command.encode ∧
    -- there are as many lines as commands
    lines (kept.flatMap Command.encode) = (kept.map fun c => c.body ++ [cr], []) ∧ ∀ c ∈ kept, c.OneLine

theorem writeOutbox_flushed (s : Session σ υ) (hw : write.WellFormed) (hs : ∀ c ∈ s.ctx.outbox, c.Proper) :
    ∃ dropped, (s.writeOutbox write).1 =
        { s with ctx := { s.ctx with outbox := [], notices := s.ctx.notices ++ dropped } } ∧
      Flushed write s.ctx.outbox dropped (s.writeOutbox write).2 := by
  have hholds : write.Holds write.capacity write.toList := ⟨hw, rfl, rfl⟩
  obtain ⟨kept, dropped, hf, hctx, hwrite⟩ := writeLines_fits { s.ctx with outbox := [] } hholds s.ctx.outbox
  have hproper : ∀ c ∈ kept, c.Proper := fun c hc => hs c (hf.sublist.subset hc)
  refine ⟨dropped, ?_, kept, ?_, hwrite.wellFormed, hwrite.toList_eq, Command.lines_encoded hproper, ?_⟩
  · rw [writeOutbox]
    dsimp only
    rw [hctx]
  · rwa [hholds.free_eq]
  · intro c hc
    exact (hproper c hc).oneLine

end

def nickAfter (config : Config) (refusals : Nat) : String :=
  Context.nick { identity := config.identity, channels := config.channels, attempt := refusals, user := () }

def answer (config : Config) (refusals : Nat) (m : Message) : List Command :=
  if m.command = ofText "PING" then [.pong m.params]
  else if m.command = ofText "004" then config.channels.map fun c => .join c.name c.key
  else if m.command = ofText "433" then [.nick (nickAfter config (refusals + 1))]
  else []

def refusals (ms : List Message) : Nat := ms.countP (·.command = ofText "433")

/-- What a session that was refused so many nicks sends because of these messages. -/
def answers (config : Config) (refused : Nat) : List Message → List Command
  | [] => []
  | m :: ms => answer config refused m ++ answers config (refused + refusals [m]) ms

theorem refusals_append (ms more : List Message) : refusals (ms ++ more) = refusals ms + refusals more :=
  List.countP_append

theorem answers_append (config : Config) (refused : Nat) (ms more : List Message) :
    answers config refused (ms ++ more) = answers config refused ms ++ answers config (refused + refusals ms) more := by
  induction ms generalizing refused with
  | nil => rfl
  | cons m ms ih =>
    have hcount := refusals_append [m] ms
    rw [List.singleton_append] at hcount
    rw [List.cons_append, answers, ih, answers, hcount, List.append_assoc, Nat.add_assoc]

theorem answers_singleton (config : Config) (refused : Nat) (m : Message) :
    answers config refused [m] = answer config refused m := List.append_nil _

variable {config : Config} {s t : Session Unit Unit}

theorem dispatch_ctx (h : Of config s) (m : Message) :
    (s.dispatch m).ctx =
      if m.command = ofText "PING" then s.ctx.onPing m
      else if m.command = ofText "004" then s.ctx.onRegistered m
      else if m.command = ofText "433" then s.ctx.onNickInUse m
      else if m.command = ofText "ERROR" then s.ctx.onError m
      else s.ctx := by
  rw [Session.dispatch]
  dsimp only
  rw [h.dispatcher, Dispatcher.dispatch, handlers_create]
  simp only [lookup_cons_ite, List.lookup_nil]
  split_ifs <;> rfl

theorem onRegistered_sends (ctx : Context Unit) (m : Message) :
    ctx.onRegistered m =
      { ctx with
        outbox := ctx.outbox ++ ctx.channels.map fun c => .join c.name c.key
        notices := ctx.notices ++ [.registered ctx.nick] } := by
  have joins (cs : List Channel) (ctx : Context Unit) :
      cs.foldl (fun ctx c => ctx.send (.join c.name c.key)) ctx =
        { ctx with outbox := ctx.outbox ++ cs.map fun c => .join c.name c.key } := by
    induction cs generalizing ctx with
    | nil => simp
    | cons c cs ih =>
      rw [List.foldl_cons, ih]
      simp [Context.send]
  exact joins ctx.channels _

def NoneDropped (said : List Notice) : Prop := ∀ len free, .lineDropped len free ∉ said

theorem NoneDropped.append {said more : List Notice} (h : NoneDropped said) (h' : NoneDropped more) :
    NoneDropped (said ++ more) := by
  intro len free hm
  obtain hm | hm := List.mem_append.mp hm
  · exact h len free hm
  · exact h' len free hm

theorem nick_eq (h : Of config s) : s.ctx.nick = nickAfter config s.ctx.attempt := by
  rw [nickAfter, ← h.identity]
  rfl

theorem refusals_singleton (m : Message) : refusals [m] = if m.command = ofText "433" then 1 else 0 := by
  simp [refusals, List.countP_singleton]

def remark (config : Config) (refused : Nat) (m : Message) : List Notice :=
  if m.command = ofText "PING" then []
  else if m.command = ofText "004" then [.registered (nickAfter config refused)]
  else if m.command = ofText "433" then [.nickInUse (nickAfter config refused) (nickAfter config (refused + 1))]
  else if m.command = ofText "ERROR" then [.linkClosed (Utf8.decodeLossy (m.trailing.getD m.params))]
  else []

theorem remark_noneDropped (config : Config) (refused : Nat) (m : Message) : NoneDropped (remark config refused m) := by
  unfold remark
  split_ifs <;> simp [NoneDropped]

theorem dispatch_answers (h : Of config s) (m : Message) :
    (s.dispatch m).ctx =
      { s.ctx with
        attempt := s.ctx.attempt + refusals [m]
        outbox := s.ctx.outbox ++ answer config s.ctx.attempt m
        notices := s.ctx.notices ++ remark config s.ctx.attempt m } := by
  rw [dispatch_ctx h, answer, remark, refusals_singleton, ← nick_eq h]
  by_cases hping : m.command = ofText "PING"
  · have hother : m.command ≠ ofText "433" := by rw [hping]; decide
    rw [if_pos hping, if_pos hping, if_pos hping, if_neg hother, List.append_nil]
    rfl
  rw [if_neg hping, if_neg hping, if_neg hping]
  by_cases hwelcome : m.command = ofText "004"
  · have hother : m.command ≠ ofText "433" := by rw [hwelcome]; decide
    rw [if_pos hwelcome, if_pos hwelcome, if_pos hwelcome, if_neg hother, onRegistered_sends, ← h.channels]
    rfl
  rw [if_neg hwelcome, if_neg hwelcome, if_neg hwelcome]
  by_cases hrefused : m.command = ofText "433"
  · have hnick : s.ctx.nextNick.nick = nickAfter config (s.ctx.attempt + 1) := by
      rw [nickAfter, ← h.identity]
      rfl
    rw [if_pos hrefused, if_pos hrefused, if_pos hrefused, if_pos hrefused, ← hnick]
    rfl
  rw [if_neg hrefused, if_neg hrefused, if_neg hrefused, if_neg hrefused, List.append_nil]
  by_cases hclosed : m.command = ofText "ERROR"
  · rw [if_pos hclosed, if_pos hclosed]
    rfl
  · rw [if_neg hclosed, if_neg hclosed, List.append_nil]
    rfl

/-- What these messages have made of a session, as far as it concerns what is sent. -/
structure Answered (config : Config) (s : Session Unit Unit) (ms : List Message) (t : Session Unit Unit) : Prop where
  outbox : t.ctx.outbox = s.ctx.outbox ++ answers config s.ctx.attempt ms
  attempt : t.ctx.attempt = s.ctx.attempt + refusals ms
  notices : ∃ said, t.ctx.notices = s.ctx.notices ++ said ∧ NoneDropped said

theorem Scanned.answered {ms : List Message} (hs : Of config s) (h : Scanned s ms t) : Answered config s ms t := by
  induction h with
  | nothing =>
    constructor
    · exact (List.append_nil _).symm
    · rfl
    · exact ⟨[], (List.append_nil _).symm, nofun⟩
  | @dispatched ms t _ m _ ht _ ih =>
    have hctx := dispatch_answers (hs.heard ht.heard) m
    obtain ⟨before, hbefore, hnone⟩ := ih.notices
    constructor
    · rw [hctx, answers_append, answers_singleton, ih.outbox, ih.attempt, List.append_assoc]
    · rw [hctx, ih.attempt, Nat.add_assoc, refusals_append]
    · rw [hctx, hbefore]
      exact ⟨_, List.append_assoc _ _ _, hnone.append (remark_noneDropped config _ m)⟩
  | moved _ _ _ ih => exact ⟨ih.outbox, ih.attempt, ih.notices⟩
  | oversize _ len ih =>
    obtain ⟨before, hbefore, hnone⟩ := ih.notices
    refine ⟨ih.outbox, ih.attempt, before ++ [.oversizeLine len], ?_, hnone.append (by simp [NoneDropped])⟩
    rw [Context.note, hbefore, List.append_assoc]

theorem Scanned.params {σ υ : Type} {s t : Session σ υ} {ms : List Message} (h : Scanned s ms t) :
    ∀ m ∈ ms, lf ∉ m.params := by
  induction h with
  | nothing => exact nofun
  | dispatched _ hm ih =>
    intro m hmem
    obtain hmem | hmem := List.mem_append.mp hmem
    · exact ih m hmem
    · obtain rfl := List.mem_singleton.mp hmem
      exact Message.lf_notMem_params hm
  | moved _ _ _ ih => exact ih
  | oversize _ _ ih => exact ih

section

variable {α : Type} {f : Notice → Option α}

def Tells (f : Notice → Option α) (s t : Session Unit Unit) (l : List α) : Prop :=
  ∃ said, t.ctx.notices = s.ctx.notices ++ said ∧ said.filterMap f = l

theorem Tells.refl (s : Session Unit Unit) : Tells f s s [] := ⟨[], (List.append_nil _).symm, rfl⟩

theorem Tells.trans {u : Session Unit Unit} {l l' : List α} (h : Tells f s t l) (h' : Tells f t u l') :
    Tells f s u (l ++ l') := by
  obtain ⟨said, hs, rfl⟩ := h
  obtain ⟨said', hs', rfl⟩ := h'
  exact ⟨said ++ said', by rw [hs', hs, List.append_assoc], List.filterMap_append⟩

theorem writeOutbox_tells (hdropped : ∀ len free, f (.lineDropped len free) = none) (s : Session Unit Unit) (write : Ring) :
    Tells f s (s.writeOutbox write).1 [] := by
  obtain ⟨dropped, honly, hn⟩ := s.writeOutbox_drops write
  refine ⟨dropped, by rw [hn], List.filterMap_eq_nil_iff.mpr fun n hmem => ?_⟩
  obtain ⟨len, free, rfl⟩ := honly n hmem
  exact hdropped len free

variable {l : List Message → List α} (hoversize : ∀ len, f (.oversizeLine len) = none) (hnil : l [] = [])
  (hsnoc : ∀ ms m, l (ms ++ [m]) = l ms ++ (remark config (s.ctx.attempt + refusals ms) m).filterMap f)

include hoversize hnil hsnoc

theorem Scanned.tells {ms : List Message} (hs : Of config s) (h : Scanned s ms t) : Tells f s t (l ms) := by
  induction h with
  | nothing =>
    rw [hnil]
    exact .refl s
  | @dispatched ms t _ m _ ht _ ih =>
    have hctx := dispatch_answers (hs.heard ht.heard) m
    rw [hsnoc, ← (ht.answered hs).attempt]
    exact ih.trans ⟨_, by rw [hctx], rfl⟩
  | moved _ _ _ ih => exact ih
  | @oversize ms t _ len ih =>
    have hnoted : Tells f t { t with ctx := t.ctx.note (.oversizeLine len) } [] :=
      ⟨[.oversizeLine len], rfl, List.filterMap_cons_none (hoversize len)⟩
    have ht := ih.trans hnoted
    rwa [List.append_nil] at ht

theorem process_tells {b b' : Buffers} {ms : List Message} (hdropped : ∀ len free, f (.lineDropped len free) = none)
    (hs : Of config s) (hp : s.process b = .ok (t, b', ms)) : Tells f s t (l ms) := by
  obtain ⟨⟨u, read, more⟩, hall, hp⟩ := Fault.bind_eq_ok.mp hp
  obtain ⟨rfl, -, rfl⟩ := by simpa [pure, Except.pure] using hp
  have ht := ((processAll_scanned hall).tells hoversize hnil hsnoc hs).trans (writeOutbox_tells hdropped u b.write)
  rwa [List.append_nil] at ht

end

theorem toList_underscores (n : Nat) : ("".pushn '_' n).toList = List.replicate n '_' := by
  unfold String.pushn
  induction n with
  | zero => rfl
  | succ n ih => rw [Nat.repeat, String.toList_push, ih, List.replicate_succ']

theorem toList_nickAfter (h : config.identity.nicks ≠ []) (k : Nat) :
    ∃ n ∈ config.identity.nicks, config.identity.nicks[k % config.identity.nicks.length]? = some n ∧
      (nickAfter config k).toList = n.toList ++ List.replicate (k / config.identity.nicks.length) '_' := by
  have hpos := List.length_pos_iff.mpr h
  have hlt := Nat.mod_lt k hpos
  refine ⟨config.identity.nicks[k % config.identity.nicks.length], List.getElem_mem hlt, List.getElem?_eq_getElem hlt, ?_⟩
  unfold nickAfter Context.nick
  dsimp only
  rw [dif_neg (by omega), String.toList_append, toList_underscores, List.get_eq_getElem]

theorem nickAfter_isWord (hv : config.Valid) (refused : Nat) : Config.isWord (nickAfter config refused) = true := by
  obtain ⟨n, hn, -, ht⟩ := toList_nickAfter hv.nicks_ne refused
  exact Config.isWord_of_toList (hv.nicks n hn) ht fun c hc => List.eq_of_mem_replicate hc

/-- What can come to be sent, but for a `QUIT`. -/
inductive Says (config : Config) : Command → Prop
  | nick (refused : Nat) : Says config (.nick (nickAfter config refused))
  | user : Says config (.user config.identity.login config.identity.name)
  | join {ch : Channel} (h : ch ∈ config.channels) : Says config (.join ch.name ch.key)
  | pong {params : Bytes} (h : lf ∉ params) : Says config (.pong params)

theorem Says.proper (hv : config.Valid) {c : Command} (h : Says config c) : c.Proper := by
  cases h with
  | nick refused => exact nickAfter_isWord hv refused
  | user => exact ⟨hv.login, hv.name⟩
  | join hch => exact hv.channels _ hch
  | pong hp => exact hp

theorem answer_said (refused : Nat) {m : Message} (hm : lf ∉ m.params) :
    ∀ c ∈ answer config refused m, Says config c := by
  unfold answer
  split_ifs
  · exact List.forall_mem_singleton.mpr (.pong hm)
  · intro c hc
    obtain ⟨ch, hch, rfl⟩ := List.mem_map.mp hc
    exact .join hch
  · exact List.forall_mem_singleton.mpr (.nick _)
  · exact nofun

theorem answers_said (refused : Nat) {ms : List Message} (hms : ∀ m ∈ ms, lf ∉ m.params) :
    ∀ c ∈ answers config refused ms, Says config c := by
  induction ms generalizing refused with
  | nil => exact nofun
  | cons m ms ih =>
    obtain ⟨hm, hrest⟩ := List.forall_mem_cons.mp hms
    exact List.forall_mem_append.mpr ⟨answer_said refused hm, ih _ hrest⟩

/-- What comes of a session of this configuration, whatever the server sends, however the calls follow one another, and
whatever rings they are given. -/
inductive Reached (config : Config) : Session Unit Unit → Prop
  | created : Reached config (Session.create config ())
  | greeted {s : Session Unit Unit} {write : Ring} (h : Reached config s) (hw : write.WellFormed) :
      Reached config (s.greet write).1
  | processed {s t : Session Unit Unit} {b b' : Buffers} {ms : List Message} (h : Reached config s)
      (hr : b.read.WellFormed) (hw : b.write.WellFormed) (hp : s.process b = .ok (t, b', ms)) : Reached config t
  | reset {s : Session Unit Unit} (h : Reached config s) : Reached config s.reset
  | told {s : Session Unit Unit} (h : Reached config s) : Reached config { s with ctx := { s.ctx with notices := [] } }

structure Ready (config : Config) (s : Session Unit Unit) : Prop where
  of : Of config s
  outbox : s.ctx.outbox = []
  waits : ∃ tail, lf ∉ tail ∧ s.Waits tail

def greeting (config : Config) (refused : Nat) : List Command :=
  [.nick (nickAfter config refused), .user config.identity.login config.identity.name]

theorem greeting_said (refused : Nat) : ∀ c ∈ greeting config refused, Says config c := by
  rw [greeting, List.forall_mem_cons, List.forall_mem_singleton]
  exact ⟨.nick refused, .user⟩

namespace Ready

variable {write : Ring} {b : Buffers}

theorem greet_flushed (hv : config.Valid) (h : Ready config s) (hw : write.WellFormed) :
    ∃ dropped, (s.greet write).1 = { s with ctx := { s.ctx with notices := s.ctx.notices ++ dropped } } ∧
      Flushed write (greeting config s.ctx.attempt) dropped (s.greet write).2 := by
  have hsent : ((s.send (.nick s.ctx.nick)).send (.user s.ctx.identity.login s.ctx.identity.name)).ctx.outbox =
      greeting config s.ctx.attempt := by
    rw [greeting, ← nick_eq h.of, ← h.of.identity]
    change (s.ctx.outbox ++ _) ++ _ = _
    rw [h.outbox]
    rfl
  obtain ⟨dropped, hs, hf⟩ := writeOutbox_flushed
    ((s.send (.nick s.ctx.nick)).send (.user s.ctx.identity.login s.ctx.identity.name)) hw
    (hsent ▸ fun c hc => (greeting_said _ c hc).proper hv)
  rw [hsent] at hf
  refine ⟨dropped, ?_, hf⟩
  change (writeOutbox _ write).1 = _
  rw [hs, ← h.outbox]
  rfl

theorem process_flushed (hv : config.Valid) (h : Ready config s) (hr : b.read.WellFormed) (hw : b.write.WellFormed) :
    ∃ t b' ms said dropped, s.process b = .ok (t, b', ms) ∧ Ready config t ∧
      t.ctx.notices = s.ctx.notices ++ said ++ dropped ∧ NoneDropped said ∧
      Flushed b.write (answers config s.ctx.attempt ms) dropped b'.write := by
  obtain ⟨tail, htail, hwaits⟩ := h.waits
  have hread : b.read.Holds b.read.capacity b.read.toList := ⟨hr, rfl, rfl⟩
  obtain ⟨u, read, kept, hp, -, -, hu⟩ := processAll_lines hwaits htail hread
  have hscanned := processAll_scanned hp
  have hanswered := hscanned.answered h.of
  have houtbox := hanswered.outbox
  rw [h.outbox, List.nil_append] at houtbox
  obtain ⟨said, hsaid, hnone⟩ := hanswered.notices
  have hproper : ∀ c ∈ answers config s.ctx.attempt _, c.Proper := fun c hc =>
    (answers_said _ hscanned.params c hc).proper hv
  obtain ⟨dropped, ht, hf⟩ := writeOutbox_flushed u hw (houtbox ▸ hproper)
  rw [houtbox] at hf
  refine ⟨(u.writeOutbox b.write).1, ⟨read, (u.writeOutbox b.write).2⟩, _, said, dropped, ?_, ?_, ?_, hnone, hf⟩
  · rw [process, hp]
    rfl
  · have hof := (h.of.heard hscanned.heard).writeOutbox b.write
    rw [ht] at hof ⊢
    exact ⟨hof, rfl, _, (lines_join _).2.2, hu⟩
  · rw [ht, ← hsaid]

end Ready

theorem Reached.ready (hv : config.Valid) (h : Reached config s) : Ready config s := by
  induction h with
  | created => exact ⟨.create config, rfl, [], List.not_mem_nil, .inl ⟨rfl, rfl, Nat.zero_le _⟩⟩
  | greeted _ hw ih =>
    obtain ⟨dropped, hs, -⟩ := ih.greet_flushed hv hw
    rw [hs]
    exact ⟨⟨ih.of.dispatcher, ih.of.identity, ih.of.channels⟩, ih.outbox, ih.waits⟩
  | processed _ hr hw hp ih =>
    obtain ⟨t, b', ms, said, dropped, hp', ht, -⟩ := ih.process_flushed hv hr hw
    rw [hp] at hp'
    obtain ⟨rfl, -, -⟩ := by simpa using hp'
    exact ht
  | reset _ ih =>
    refine ⟨⟨ih.of.dispatcher, ih.of.identity, ih.of.channels⟩, rfl, [], List.not_mem_nil, ?_⟩
    exact .inl ⟨rfl, rfl, Nat.zero_le _⟩
  | told _ ih => exact ⟨⟨ih.of.dispatcher, ih.of.identity, ih.of.channels⟩, ih.outbox, ih.waits⟩

theorem only_whole_lines_are_sent (hv : config.validate = .ok ()) (hs : Reached config s) :
    s.ctx.outbox = [] ∧
    (∀ write : Ring, write.WellFormed → ∃ dropped,
      (s.greet write).1.ctx.outbox = [] ∧ (s.greet write).1.ctx.notices = s.ctx.notices ++ dropped ∧
      Flushed write (greeting config s.ctx.attempt) dropped (s.greet write).2) ∧
    ∀ b : Buffers, b.read.WellFormed → b.write.WellFormed → ∃ t b' ms said dropped,
      s.process b = .ok (t, b', ms) ∧ t.ctx.outbox = [] ∧
      t.ctx.notices = s.ctx.notices ++ said ++ dropped ∧ NoneDropped said ∧
      Flushed b.write (answers config s.ctx.attempt ms) dropped b'.write := by
  have hvalid := Config.validate_eq_ok_iff.mp hv
  have hready := hs.ready hvalid
  refine ⟨hready.outbox, ?_, ?_⟩
  · intro write hw
    obtain ⟨dropped, hg, hf⟩ := hready.greet_flushed hvalid hw
    refine ⟨dropped, ?_, ?_, hf⟩
    · rw [hg]
      exact hready.outbox
    · rw [hg]
  · intro b hr hw
    obtain ⟨t, b', ms, said, dropped, hp, ht, hrest⟩ := hready.process_flushed hvalid hr hw
    exact ⟨t, b', ms, said, dropped, hp, ht.outbox, hrest⟩

def terse : Config := ⟨⟨"host", 6667⟩, ⟨["bot"], "Example Bot", "ebot"⟩, [⟨"#c", some "k"⟩], {}, {}⟩

def sixteenBytes : Ring := ⟨Array.replicate 16 0, 12, 12, 0⟩

def pings : Bytes := ofText "PING :irc.example.net\r\nPING :a\r\n"

/-- Neither the second line of a greeting nor the answer to the first message fits, but the answer to the second does. -/
theorem only_whole_lines_are_sent_of_sixteen_bytes :
    ((Session.create terse () : Session Unit Unit).reset.greet sixteenBytes).2.toList = ofText "NICK bot\r\n" ∧
    ((Session.create terse () : Session Unit Unit).reset.greet sixteenBytes).1.ctx.notices = [.lineDropped 28 6] ∧
    ∃ t b' ms, (Session.create terse () : Session Unit Unit).reset.process
        ⟨⟨pings.toArray, 0, 0, pings.length⟩, sixteenBytes⟩ = .ok (t, b', ms) ∧
      b'.write.toList = ofText "PONG :a\r\n" ∧ Notice.lineDropped 23 16 ∈ t.ctx.notices := by
  have hs : Reached terse (Session.create terse () : Session Unit Unit).reset := .reset .created
  have hw : sixteenBytes.WellFormed := ⟨by decide, by decide, by decide, by decide⟩
  have hr : Ring.WellFormed ⟨pings.toArray, 0, 0, pings.length⟩ :=
    ⟨by decide +kernel, by decide +kernel, by decide +kernel, by decide +kernel⟩
  obtain ⟨-, hgreet, hprocess⟩ := only_whole_lines_are_sent (by decide +kernel) hs
  refine and_assoc.mp ⟨?_, ?_⟩
  · obtain ⟨dropped, -, hnotices, kept, hfits, -, hlist, -⟩ := hgreet sixteenBytes hw
    change Fits 16 (greeting terse 0) kept dropped at hfits
    have hsent : greeting terse 0 = [.nick "bot", .user "ebot" "Example Bot"] := by decide +kernel
    rw [hsent] at hfits
    obtain ⟨_, rfl, huser⟩ := hfits.of_le (by decide +kernel)
    obtain ⟨_, rfl, hrest⟩ := huser.of_lt (by decide +kernel)
    obtain ⟨rfl, rfl⟩ := hrest.of_nil
    rw [hlist, hnotices]
    exact ⟨by decide +kernel, by decide +kernel⟩
  · obtain ⟨t, b', ms, said, dropped, hp, -, hnotices, -, kept, hfits, -, hlist, -⟩ :=
      hprocess ⟨⟨pings.toArray, 0, 0, pings.length⟩, sixteenBytes⟩ hr hw
    have hms : ((Session.create terse () : Session Unit Unit).reset.process
        ⟨⟨pings.toArray, 0, 0, pings.length⟩, sixteenBytes⟩).map (·.2.2) =
          .ok [⟨none, ofText "PING", ofText ":irc.example.net"⟩, ⟨none, ofText "PING", ofText ":a"⟩] := by
      decide +kernel
    rw [hp] at hms
    obtain rfl := Except.ok.inj hms
    have hsent : answers terse 0 [⟨none, ofText "PING", ofText ":irc.example.net"⟩, ⟨none, ofText "PING", ofText ":a"⟩] =
        [.pong (ofText ":irc.example.net"), .pong (ofText ":a")] := by decide +kernel
    change Fits 16 (answers terse 0 _) kept dropped at hfits
    rw [hsent] at hfits
    obtain ⟨_, rfl, hshort⟩ := hfits.of_lt (by decide +kernel)
    obtain ⟨_, rfl, hrest⟩ := hshort.of_le (by decide +kernel)
    obtain ⟨rfl, rfl⟩ := hrest.of_nil
    refine ⟨t, b', _, hp, ?_, ?_⟩
    · rw [hlist]
      decide +kernel
    · rw [hnotices]
      exact List.mem_append_right _ (List.mem_singleton.mpr (by decide +kernel))

end Session

end IrcLink
