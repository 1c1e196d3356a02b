import IrcLink.Proofs.Bot.Isolation
import IrcLink.Proofs.Engine.Flush
import IrcLink.Proofs.Engine.Lossless
import IrcLink.Proofs.Session.Replies

/-!
How the loop ends. It goes on until a stop is asked for or a wait fails. Asked to stop, it answers what has come, says
`QUIT` if there is a connection, and waits once more, for no time, so that the word is sent; without a connection it ends
at once.
-/

namespace IrcLink

namespace Session

open Bytes

variable {config : Config} {s t : Session Unit Unit} {b c : Buffers} {refused C : Nat} {tail : Bytes}

def quitSending (s : Session Unit Unit) (write : Ring) : Sending :=
  ⟨(s.send (.quit (some quitReason))).ctx.outbox, write, (s.quit (some quitReason) write).2⟩

def Sending.NoQuit (c : Sending) : Prop := ∀ reason, .quit reason ∉ c.sent

def conversation (connected : Bool) (s : Session Unit Unit) (b : Buffers) : Except Fault (List Sending) := do
  let (_, c) ← (greeted connected s b).1.processSending (greeted connected s b).2
  return (if connected then [s.greetSending b.write] else []) ++ [c]

theorem quit_notMem_greeting (config : Config) (refused : Nat) (reason : Option String) :
    .quit reason ∉ greeting config refused := by
  simp [greeting]

theorem quit_notMem_answers (config : Config) (refused : Nat) (ms : List Message) (reason : Option String) :
    .quit reason ∉ answers config refused ms := by
  induction ms generalizing refused with
  | nil => exact List.not_mem_nil
  | cons m ms ih =>
    have hm : .quit reason ∉ answer config refused m := by
      unfold answer
      split_ifs
      all_goals simp
    rw [answers, List.mem_append, not_or]
    exact ⟨hm, ih _⟩

namespace Between

theorem told (h : Between config refused tail s) : Between config refused tail s.told :=
  ⟨h.of.told, h.attempt, h.outbox, h.waits, h.unended⟩

theorem greeted (h : Between config refused tail s) (connected : Bool) (b : Buffers) :
    Between config refused tail (greeted connected s b).1 := by
  cases connected with
  | true => exact (h.greet b.write).told
  | false => exact h

theorem lf_notMem_pending (h : Between config refused tail s) : lf ∉ s.pending := by
  obtain ⟨-, hp, -⟩ | ⟨-, hp, -⟩ := h.waits
  all_goals rw [hp]
  · exact h.unended
  · exact List.not_mem_nil

theorem conversation (h : Between config refused tail s) (hb : b.Hold C) (connected disconnected : Bool) :
    ∃ said t d refused' tail', Session.conversation connected s b = .ok said ∧
      converse connected disconnected s b = .ok (t, d) ∧ Between config refused' tail' t ∧ d.read.isEmpty = true ∧
      (∀ c ∈ said, c.Done ∧ c.NoQuit) ∧ (disconnected = false → said.getLast?.map (·.after) = some d.write) := by
  have hg := greeted_hold hb connected s
  obtain ⟨t, c, d, kept, hp, hs, hdone, hafter, hsent, hread, -, ht⟩ :=
    (h.greeted connected b).process hg.read_wellFormed hg.write_wellFormed
  have hlast : c.Done ∧ c.NoQuit := ⟨hdone, fun reason => by rw [hsent]; exact quit_notMem_answers _ _ _ _⟩
  obtain ⟨hgreeting, hgreet⟩ := h.greetSending hb.write_wellFormed
  have hfirst : (s.greetSending b.write).Done ∧ (s.greetSending b.write).NoQuit :=
    ⟨hgreet, fun reason => by rw [hgreeting]; exact quit_notMem_greeting _ _ _⟩
  have hsaid : Session.conversation connected s b =
      .ok ((if connected then [s.greetSending b.write] else []) ++ [c]) := by
    unfold Session.conversation
    rw [hs]
    rfl
  have hconverse : converse connected disconnected s b = .ok (parted disconnected t.told d) := by
    unfold converse
    rw [hp]
    rfl
  have hall : ∀ c' ∈ (if connected then [s.greetSending b.write] else []) ++ [c], c'.Done ∧ c'.NoQuit := by
    refine List.forall_mem_append.mpr ⟨?_, List.forall_mem_singleton.mpr hlast⟩
    cases connected with
    | true => exact List.forall_mem_singleton.mpr hfirst
    | false => exact nofun
  cases disconnected with
  | true =>
    have hclear := (process_hold hg hp).clear
    exact ⟨_, _, _, _, _, hsaid, hconverse, ht.told.reset, hclear.read.1.isEmpty_iff.mpr rfl, hall, nofun⟩
  | false =>
    refine ⟨_, _, _, _, _, hsaid, hconverse, ht.told, hread, hall, fun _ => ?_⟩
    rw [List.getLast?_concat, Option.map_some, hafter]

theorem quitSending (h : Between config refused tail s) {write : Ring} (hw : write.WellFormed) :
    (s.quitSending write).sent = [.quit (some quitReason)] ∧ (s.quitSending write).Done := by
  refine ⟨?_, writeOutbox_done _ hw⟩
  change s.ctx.outbox ++ _ = _
  rw [h.outbox]
  rfl

end Between

theorem Sending.Done.queued {c : Sending} {command : Command} (h : c.Done) (hsent : c.sent = [command])
    (hfits : command.encode.length ≤ c.before.free) :
    ∃ C, c.after.Holds C (c.before.toList ++ command.encode) := by
  obtain ⟨kept, dropped, hf, hw, hafter⟩ := h
  rw [hsent] at hf
  refine ⟨_, hw, rfl, hafter.trans ?_⟩
  cases hf with
  | kept _ hrest =>
    cases hrest
    rw [List.flatMap_singleton]
  | dropped hc _ => omega

end Session

namespace Bot

open Session

variable {ω : Type} {S : System ω} {config : Config} {b b' b₀ b₁ b₂ : Bot ω} {cs said : List Sending} {o : Outcome}

/-- What follows a cycle with this outcome, but for the end of the loop: this is said, and the loop stands here. -/
structure Converses (S : System ω) (o : Outcome) (b : Bot ω) (said : List Sending) (b' : Bot ω) : Prop where
  said : conversation o.connected b.session b.buffers = .ok said
  after : b.afterCycle S { o with stopRequested := false } = .ok (b', none)

inductive Chats (S : System ω) (b₀ : Bot ω) : List Sending → Bot ω → Prop
  | start : Chats S b₀ [] b₀
  | turn {cs said : List Sending} {b b₁ b₂ : Bot ω} {o : Outcome} (h : Chats S b₀ cs b)
      (hc : b.cycle S b.config.tuning.pollTimeout = .ok (.ok o, b₁)) (hstop : o.stopRequested = false)
      (ht : Converses S o b₁ said b₂) : Chats S b₀ (cs ++ said) b₂

/-- The last word to the server, after all answers, and the cycle that sends it: it waits once, for no time. -/
structure Quits (S : System ω) (s : Socket) (b₁ : Bot ω) (said : List Sending) (b₂ b' : Bot ω) (ended : Option Ended) :
    Prop where
  answered : b₂.buffers.read.isEmpty = true ∧ Bytes.lf ∉ b₂.session.pending
  follows : said.getLast?.map (·.after) = some b₂.buffers.write
  sent : (b₂.session.quitSending b₂.buffers.write).sent = [.quit (some quitReason)]
  done : (b₂.session.quitSending b₂.buffers.write).Done
  last : ∃ b₃ result before answer after,
    Leaves b₂ (b₂.session.quit (some quitReason) b₂.buffers.write).1.told
      { b₂.buffers with write := (b₂.session.quitSending b₂.buffers.write).after } b₃ ∧
    b₃.cycle S 0 = .ok (result, b') ∧ ended = some (.ofCycle result) ∧
    b₁.engine.world.WaitsOnce before (some 0) answer after b'.engine.world ∧
    (∀ e, result = .error e ↔ answer = .failed e.code) ∧
    -- if the word fits and nothing is refused, then all of it is sent
    ((Command.quit (some quitReason)).encode.length ≤ b₂.buffers.write.free →
      b₁.engine.connection.flow.writeFull = false → (∀ x ∈ before, x.refuses = false) →
      ∀ seg, b'.engine.world.journal = b₁.engine.world.journal ++ seg →
        seg.sentOn s = b₂.buffers.write.toList ++ (Command.quit (some quitReason)).encode)

theorem cycle_waits {timeout : Nat} {result : Except Engine.WaitError Outcome}
    (h : b.cycle S timeout = .ok (result, b')) :
    ∃ before limit answer after, b.engine.world.WaitsOnce before (some limit) answer after b'.engine.world ∧
      limit ≤ timeout ∧ (∀ e, result = .error e ↔ answer = .failed e.code) ∧
      ∀ s peer C q, b.engine.connection.phase = .connected s peer → b.engine.connection.flow.writeFull = false →
        b.buffers.write.Holds C q → (∀ x ∈ before, x.refuses = false) → (before ++ after).flatMap (·.sentOn s) = q := by
  obtain ⟨now, world, hn, hc, -, -⟩ := cycle_ok h
  obtain ⟨before, limit, answer, after, hw, hle, hfailed, hflushed⟩ := Engine.cycle_waits hc
  have hd := World.now_does S b.engine.world
  rw [hn] at hd
  exact ⟨before, limit, answer, after, .after_does hd nofun hw, hle, hfailed, hflushed⟩

structure Poised (config : Config) (b : Bot ω) : Prop where
  session : ∃ refused tail, Between config refused tail b.session
  buffers : b.buffers.Hold config.tuning.bufferSize

theorem create_poised {engine : Engine ω} (h : create S config engine = .ok b) : Poised config b := by
  have hs := create_sound h
  obtain ⟨buffers, -, h⟩ := Fault.bind_eq_ok.mp h
  obtain rfl := Except.ok.inj h
  exact ⟨⟨_, _, between_create config⟩, hs.buffers⟩

theorem Poised.cycle {timeout : Nat} {result : Except Engine.WaitError Outcome} (h : Poised config b)
    (hc : b.cycle S timeout = .ok (result, b₁)) : Poised config b₁ := by
  obtain ⟨now, world, -, hc, hsession, -⟩ := cycle_ok hc
  exact ⟨by rw [hsession]; exact h.session, Engine.cycle_hold h.buffers hc⟩

theorem Poised.converses (h : Poised config b) (ha : b.afterCycle S { o with stopRequested := false } = .ok (b', none)) :
    ∃ said, Converses S o b said b' ∧ Poised config b' ∧ b'.engine.connection = b.engine.connection ∧
      b.engine.world.Hush b'.engine.world ∧ b'.buffers.read.isEmpty = true ∧ (∀ c ∈ said, c.Done ∧ c.NoQuit) ∧
      (o.disconnected = false → said.getLast?.map (·.after) = some b'.buffers.write) := by
  obtain ⟨refused, tail, hs⟩ := h.session
  obtain ⟨said, t, d, _, _, hsaid, hconverse, ht, hread, hall, hlast⟩ :=
    hs.conversation h.buffers o.connected o.disconnected
  obtain ⟨t', d', b₁, hconverse', hl, ⟨-, hr⟩ | ⟨hstop, -⟩⟩ := afterCycle_ok ha
  · obtain ⟨rfl, rfl⟩ := Prod.mk.inj (Except.ok.inj (hconverse.symm.trans hconverse'))
    obtain rfl := (Prod.mk.inj hr).1
    refine ⟨said, ⟨hsaid, ha⟩, ⟨⟨_, _, by rw [hl.session_eq]; exact ht⟩, ?_⟩, hl.connection_eq, hl.hush, ?_, hall, ?_⟩
    · rw [hl.buffers_eq]
      exact converse_hold h.buffers hconverse
    · rw [hl.buffers_eq]
      exact hread
    · rw [hl.buffers_eq]
      exact hlast
  · exact absurd hstop nofun

theorem Poised.quits (h : Poised config b₂) {s : Socket} {peer : SocketAddress} {last : Ended}
    (hhush : b₁.engine.world.Hush b₂.engine.world) (hconnection : b₂.engine.connection = b₁.engine.connection)
    (hread : b₂.buffers.read.isEmpty = true) (hfollows : said.getLast?.map (·.after) = some b₂.buffers.write)
    (hphase : b₁.engine.connection.phase = .connected s peer) (hb : b₂.stop S = .ok (b', last)) :
    Quits S s b₁ said b₂ b' (some last) := by
  obtain ⟨refused, tail, hs⟩ := h.session
  obtain ⟨hsent, hdone⟩ := hs.quitSending h.buffers.write_wellFormed
  refine ⟨⟨hread, hs.lf_notMem_pending⟩, hfollows, hsent, hdone, ?_⟩
  obtain ⟨hu, -⟩ | ⟨-, b₃, result, rfl, hl, hc⟩ := stop_ok hb
  · rw [hconnection] at hu
    exact absurd (Connection.state_eq_connected.mpr ⟨s, peer, hphase⟩) hu
  obtain ⟨before, limit, answer, after, hw, hle, hfailed, hflushed⟩ := cycle_waits hc
  obtain rfl : limit = 0 := Nat.le_zero.mp hle
  -- between the two cycles nothing is seen, so nothing is sent either and there is no wait
  obtain ⟨es, hd, hes⟩ := hhush.trans hl.hush
  have hwaits := hw.after_does hd fun x hx => Event.waitTimeout_of_sight (Event.sight_of_isSilent (hes x hx))
  refine ⟨b₃, result, es ++ before, answer, after, hl, hc, rfl, hwaits, hfailed, ?_⟩
  intro hfits hfull haccepted seg hj
  obtain ⟨C, hq⟩ := hdone.queued hsent hfits
  have hnone : es.flatMap (·.sentOn s) = [] := by
    exact List.flatMap_eq_nil_iff.mpr fun x hx => Event.sentOn_of_sight (Event.sight_of_isSilent (hes x hx))
  rw [hl.connection_eq, hconnection, hl.buffers_eq] at hflushed
  rw [hwaits.sentOn_eq hj, List.append_assoc, List.flatMap_append, hnone, List.nil_append]
  exact hflushed s peer C _ hphase hfull hq fun x hx => haccepted x (List.mem_append_right _ hx)

theorem Chats.poised (hb₀ : Poised config b₀) (h : Chats S b₀ cs b) :
    Poised config b ∧ b₀.engine.world.Only (·.isFailedWait = false) b.engine.world ∧ ∀ c ∈ cs, c.NoQuit := by
  induction h with
  | start => exact ⟨hb₀, .refl _, nofun⟩
  | @turn cs said b b₁ b₂ o _ hc _ ht ih =>
    obtain ⟨hb, honly, hnone⟩ := ih
    obtain ⟨said', ht', hb₂, -, hhush, -, hall, -⟩ := (hb.cycle hc).converses ht.after
    obtain rfl := Except.ok.inj (ht.said.symm.trans ht'.said)
    obtain ⟨before, limit, answer, after, hw, -, hfailed, -⟩ := cycle_waits hc
    have hanswer : ∀ code, answer ≠ .failed code := fun code ha => absurd ((hfailed ⟨code⟩).mpr ha) nofun
    have htalk : b₁.engine.world.Only (·.isFailedWait = false) b₂.engine.world :=
      hhush.mono fun _ hx => Event.isFailedWait_of_waitTimeout (Event.waitTimeout_of_sight (Event.sight_of_isSilent hx))
    refine ⟨hb₂, (honly.trans (hw.only hanswer)).trans htalk, List.forall_mem_append.mpr ⟨hnone, ?_⟩⟩
    exact fun c hc => (hall c hc).2

theorem Chats.step (hb₀ : Poised config b₀) (h : Chats S b₀ cs b) (hs : b.step S = .ok (b', none)) :
    ∃ said, Chats S b₀ (cs ++ said) b' := by
  obtain ⟨result, b₁, hc, hr⟩ := step_ok hs
  cases result with
  | error e => exact absurd (Prod.mk.inj hr).2 nofun
  | ok o =>
    obtain ⟨b₂, ha, ⟨hstop, rfl, -⟩ | ⟨-, last, -, hnone⟩⟩ := afterCycle_stop hr
    · obtain ⟨said, ht, -⟩ := ((h.poised hb₀).1.cycle hc).converses ha
      exact ⟨said, h.turn hc hstop ht⟩
    · exact absurd hnone nofun

theorem Chats.run (hb₀ : Poised config b₀) {n : Nat} {ended : Option Ended} (h : Chats S b₀ cs b)
    (hr : run S n b = .ok (b', ended)) :
    ∃ cs' b₁, Chats S b₀ cs' b₁ ∧ (ended = none ∧ b' = b₁ ∨ ended ≠ none ∧ b₁.step S = .ok (b', ended)) := by
  induction n generalizing cs b with
  | zero =>
    obtain ⟨rfl, rfl⟩ := Prod.mk.inj (Except.ok.inj hr)
    exact ⟨cs, b, h, .inl ⟨rfl, rfl⟩⟩
  | succ n ih =>
    obtain ⟨⟨b₁, ended₁⟩, hs, hr⟩ := Fault.bind_eq_ok.mp hr
    cases ended₁ with
    | none =>
      obtain ⟨said, h₁⟩ := h.step hb₀ hs
      exact ih h₁ hr
    | some last =>
      obtain ⟨rfl, rfl⟩ := Prod.mk.inj (Except.ok.inj hr)
      exact ⟨cs, b, h, .inr ⟨nofun, hs⟩⟩

theorem stops_when_asked (hS : S.Bounded) {engine : Engine ω} (hb : create S config engine = .ok b₀) :
    -- a run is turns in which no stop is asked for, and then the one that ends it
    (∀ n, ∃ cs b b' ended, Chats S b₀ cs b ∧ run S n b₀ = .ok (b', ended) ∧
      (ended = none ∧ b' = b ∨ ended ≠ none ∧ b.step S = .ok (b', ended))) ∧
    ∀ cs b, Chats S b₀ cs b →
      b₀.engine.world.Only (·.isFailedWait = false) b.engine.world ∧ (∀ c ∈ cs, c.NoQuit) ∧
      ∃ result b₁ b' ended before limit answer after,
        b.cycle S b.config.tuning.pollTimeout = .ok (result, b₁) ∧ b.step S = .ok (b', ended) ∧
        b.engine.world.WaitsOnce before limit answer after b₁.engine.world ∧
        (∀ e, result = .error e ↔ answer = .failed e.code) ∧
        -- a wait that fails ends the run
        (∀ e, result = .error e → b' = b₁ ∧ ended = some (.failed e)) ∧
        ∀ o, result = .ok o → ∃ said b₂, Converses S o b₁ said b₂ ∧ (∀ c ∈ said, c.Done ∧ c.NoQuit) ∧
          (o.stopRequested = false → b' = b₂ ∧ ended = none) ∧
          -- a stop ends it at once if there is no connection, and else with a last word
          (o.stopRequested = true → b₁.engine.connection.state ≠ .connected → ended = some .stopped ∧
            b'.session = b₂.session ∧ b'.buffers = b₂.buffers ∧
            b₁.engine.world.Only (·.waitTimeout? = none) b'.engine.world) ∧
          ∀ s peer, o.stopRequested = true → b₁.engine.connection.phase = .connected s peer →
            Quits S s b₁ said b₂ b' ended := by
  have hb₀ := create_poised hb
  constructor
  · intro n
    obtain ⟨⟨b', ended⟩, hr⟩ := run_isOk hS n b₀
    obtain ⟨cs, b, hchats, hend⟩ := Chats.start.run hb₀ hr
    exact ⟨cs, b, b', ended, hchats, hr, hend⟩
  intro cs b hchats
  obtain ⟨hpoised, honly, hnone⟩ := hchats.poised hb₀
  obtain ⟨⟨b', ended⟩, hs⟩ := step_isOk hS b
  obtain ⟨result, b₁, hc, hr⟩ := step_ok hs
  obtain ⟨before, limit, answer, after, hw, -, hfailed, -⟩ := cycle_waits hc
  refine ⟨honly, hnone, result, b₁, b', ended, before, some limit, answer, after, hc, hs, hw, hfailed, ?_, ?_⟩
  · rintro e rfl
    exact Prod.mk.inj hr
  rintro o rfl
  obtain ⟨b₂, ha, hend⟩ := afterCycle_stop hr
  obtain ⟨said, ht, hb₂, hconnection, hhush, hread, hall, hlast⟩ := (hpoised.cycle hc).converses ha
  refine ⟨said, b₂, ht, hall, ?_, ?_, ?_⟩
  · intro hstop
    obtain ⟨-, rfl, rfl⟩ | ⟨hstop', -⟩ := hend
    · exact ⟨rfl, rfl⟩
    · exact absurd (hstop.symm.trans hstop') nofun
  · intro hstop hu
    obtain ⟨hstop', -⟩ | ⟨-, last, hb, rfl⟩ := hend
    · exact absurd (hstop.symm.trans hstop') nofun
    obtain ⟨-, rfl, hl⟩ | ⟨hup, -⟩ := stop_ok hb
    · exact ⟨rfl, hl.session_eq, hl.buffers_eq, (hhush.unseen.trans hl.hush.unseen).mono fun _ => Event.waitTimeout_of_sight⟩
    · rw [hconnection] at hup
      exact absurd hup hu
  · intro s peer hstop hphase
    obtain ⟨hstop', -⟩ | ⟨-, last, hb, rfl⟩ := hend
    · exact absurd (hstop.symm.trans hstop') nofun
    -- a cycle that ends with a connection has not lost one
    obtain ⟨_, _, -, hcycle, -, -⟩ := cycle_ok hc
    have hdisconnected : o.disconnected = false :=
      ((Engine.cycle_turned hcycle).state_iff.mp (Connection.state_eq_connected.mpr ⟨s, peer, hphase⟩)).2
    exact hb₂.quits hhush hconnection hread (hlast hdisconnected) hphase hb

def stoppedAtOnce : Script where
  upcoming := [{}]
  turns := [{}, { lookup := some none }, { interrupt := true, result := .events [writable] }]

def small.leave (p : Script) : Except Fault Bytes := do
  let S := Script.system
  let b₀ ← start p
  let (b, ended) ← b₀.run S 2
  let (result, b₁) ← b.cycle S b.config.tuning.pollTimeout
  let o ← result.mapError fun _ => Fault.zeroCapacity
  let (b₂, _) ← b₁.afterCycle S { o with stopRequested := false }
  let (b', ended') ← b.step S
  if ended = none ∧ ended' = some .stopped ∧ o.stopRequested = true ∧
      b₁.engine.connection.phase = .connected 0 ⟨.v4 1 2 3 4, 1, 0⟩ ∧ b₁.engine.connection.flow.writeFull = false ∧
      (Command.quit (some quitReason)).encode.length ≤ b₂.buffers.write.free ∧
      (b'.engine.world.journal.all fun x => !x.event.refuses) = true then return b₂.buffers.write.toList
  else throw .zeroCapacity

theorem small.leave_ok {p : Script} {queued : Bytes} (h : leave p = .ok queued) :
    ∃ engine b₀ b o b₁ b₂ none' b', Engine.create Script.system small.linkSettings 0 { os := p } = .ok engine ∧
      create Script.system small engine = .ok b₀ ∧ b₀.run Script.system 2 = .ok (b, none) ∧
      b.cycle Script.system b.config.tuning.pollTimeout = .ok (.ok o, b₁) ∧
      b₁.afterCycle Script.system { o with stopRequested := false } = .ok (b₂, none') ∧
      b.step Script.system = .ok (b', some .stopped) ∧ o.stopRequested = true ∧
      b₁.engine.connection.phase = .connected 0 ⟨.v4 1 2 3 4, 1, 0⟩ ∧ b₁.engine.connection.flow.writeFull = false ∧
      (Command.quit (some quitReason)).encode.length ≤ b₂.buffers.write.free ∧
      (∀ x ∈ b'.engine.world.journal, x.event.refuses = false) ∧ b₂.buffers.write.toList = queued := by
  obtain ⟨b₀, hb, h⟩ := Fault.bind_eq_ok.mp h
  obtain ⟨⟨b, ended⟩, hrun, h⟩ := Fault.bind_eq_ok.mp h
  obtain ⟨⟨result, b₁⟩, hc, h⟩ := Fault.bind_eq_ok.mp h
  obtain ⟨o, ho, h⟩ := Fault.bind_eq_ok.mp h
  obtain ⟨⟨b₂, none'⟩, ha, h⟩ := Fault.bind_eq_ok.mp h
  obtain ⟨⟨b', ended'⟩, hs, hlast⟩ := Fault.bind_eq_ok.mp h
  obtain ⟨engine, he, hb⟩ : ∃ engine, Engine.create Script.system small.linkSettings 0 { os := p } = .ok engine ∧
      create Script.system small engine = .ok b₀ := by
    unfold start at hb
    split at hb
    · rename_i engine he
      exact ⟨engine, he, hb⟩
    · exact absurd hb nofun
  obtain rfl : result = .ok o := by
    cases result with
    | error e => exact absurd ho nofun
    | ok o' => exact congrArg Except.ok (Except.ok.inj ho)
  dsimp only at hlast
  split at hlast
  · rename_i hall
    obtain ⟨rfl, rfl, hstop, hphase, hfull, hfits, haccepted⟩ := hall
    refine ⟨engine, b₀, b, o, b₁, b₂, none', b', he, hb, hrun, hc, ha, hs, hstop, hphase, hfull, hfits, ?_, Except.ok.inj hlast⟩
    intro x hx
    simpa using List.all_eq_true.mp haccepted x hx
  · exact absurd hlast nofun

theorem stops_when_asked_by_stoppedAtOnce :
    Script.system.Bounded ∧ ∃ engine b₀ cs b b₁ said b₂ b' seg,
      Engine.create Script.system small.linkSettings 0 { os := stoppedAtOnce } = .ok engine ∧
      create Script.system small engine = .ok b₀ ∧ Chats Script.system b₀ cs b ∧
      b.step Script.system = .ok (b', some .stopped) ∧
      Quits Script.system 0 b₁ said b₂ b' (some .stopped) ∧
      b'.engine.world.journal = b₁.engine.world.journal ++ seg ∧
      seg.sentOn 0 = Bytes.ofText "NICK nick\r\nUSER login 8 * :name\r\nQUIT :shutting down\r\n" := by
  have hS := Script.system_bounded
  have hleave : small.leave stoppedAtOnce = .ok (Bytes.ofText "NICK nick\r\nUSER login 8 * :name\r\n") := by
    decide +kernel
  obtain ⟨engine, b₀, b, o, b₁, b₂, none', b', he, hb, hrun, hc, ha, hs, hstop, hphase, hfull, hfits, haccepted, hqueued⟩ :=
    small.leave_ok hleave
  obtain ⟨hruns, hturns⟩ := stops_when_asked hS hb
  obtain ⟨cs, _, _, _, hchats, hrun', hend⟩ := hruns 2
  obtain ⟨rfl, rfl⟩ := Prod.mk.inj (Except.ok.inj (hrun.symm.trans hrun'))
  obtain ⟨-, rfl⟩ | ⟨hne, -⟩ := hend
  · obtain ⟨-, -, _, _, _, _, _, _, _, _, hc', hs', -, -, -, hlast⟩ := hturns cs b hchats
    obtain ⟨rfl, rfl⟩ := Prod.mk.inj (Except.ok.inj (hc.symm.trans hc'))
    obtain ⟨rfl, rfl⟩ := Prod.mk.inj (Except.ok.inj (hs.symm.trans hs'))
    obtain ⟨said, _, ht, -, -, -, hquits⟩ := hlast o rfl
    obtain ⟨rfl, -⟩ := Prod.mk.inj (Except.ok.inj (ha.symm.trans ht.after))
    have hq := hquits 0 _ hstop hphase
    obtain ⟨_, _, before, _, _, -, -, -, hw, -, hflushed⟩ := hq.last
    obtain ⟨_, seg, hj, hown⟩ := hw.does
    refine ⟨hS, engine, b₀, cs, b, b₁, said, b₂, b', seg, he, hb, hchats, hs, hq, hj, ?_⟩
    rw [hflushed hfits hfull ?_ seg hj, hqueued]
    · decide +kernel
    · intro x hx
      obtain ⟨y, hy, rfl⟩ := Journal.exists_of_mem_own (hown ▸ List.mem_append_left _ hx)
      exact haccepted y (hj ▸ List.mem_append_right _ hy)
  · exact absurd rfl hne

end Bot

end IrcLink
