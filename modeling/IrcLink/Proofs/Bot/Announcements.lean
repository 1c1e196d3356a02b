import IrcLink.Proofs.Bot.Isolation
import IrcLink.Proofs.Engine.Turns
import IrcLink.Proofs.Session.Outbound
import Mathlib.Data.List.Chain

/-!
What the operator is told of connections. The line about a connection that was made is written by what the engine is after the
cycle, the line about one that was lost by what the cycle reports. So a connection that is lost in the cycle that made it is only
said to have been lost; as long as there is none of this kind, the lines pair up.
-/

namespace IrcLink

def Notice.turn? : Notice → Option Turn
  | .connected _ => some .made
  | .disconnected _ _ => some .lost
  | _ => none

def Event.announced? : Event → Option Turn
  | .notice n => n.turn?
  | _ => none

def Outcome.announced (o : Outcome) : List Turn :=
  if o.disconnected then [.lost] else if o.connected then [.made] else []

/-- One connection after another is made and lost. -/
def Turn.PairUp (lines : List Turn) : Prop := lines.head? ≠ some .lost ∧ lines.IsChain (· ≠ ·)

instance (lines : List Turn) : Decidable (Turn.PairUp lines) := inferInstanceAs (Decidable (_ ∧ _))

theorem Turn.pairUp_concat (lines : List Turn) (turn : Turn) :
    PairUp (lines ++ [turn]) ↔ PairUp lines ∧ (turn = .made ↔ lines.getLast? ≠ some .made) := by
  obtain rfl | ⟨before, last, rfl⟩ := List.eq_nil_or_concat' lines
  · cases turn <;> simp [PairUp]
  · have hhead : (before ++ [last] ++ [turn]).head? = (before ++ [last]).head? := by
      cases before <;> rfl
    have hlast : last ≠ turn ↔ (turn = .made ↔ last ≠ .made) := by
      cases last <;> cases turn <;> simp
    rw [PairUp, PairUp, hhead, List.isChain_append, and_assoc]
    simp [hlast]

theorem Outcome.announced_after (o : Outcome) {lines : List Turn} {linked linked' : Prop}
    (hlast : lines.getLast? = some .made ↔ linked)
    (hlinked : linked' ↔ (linked ∨ o.connected = true) ∧ o.disconnected = false)
    (hun : ¬linked → o.connected = false → o.disconnected = false) (hnot : o.connected = true → ¬linked) :
    (Turn.PairUp (lines ++ o.announced) ↔ Turn.PairUp lines ∧ ¬(o.connected = true ∧ o.disconnected = true)) ∧
      ((lines ++ o.announced).getLast? = some .made ↔ linked') := by
  unfold announced
  cases hd : o.disconnected with
  | true =>
    have hup : linked ↔ ¬o.connected = true := by
      constructor
      · exact fun hl hm => hnot hm hl
      · intro hm
        by_contra hu
        simp [hun hu (Bool.eq_false_iff.mpr hm)] at hd
    simp [Turn.pairUp_concat, hlast, hlinked, hd, hup]
  | false =>
    cases hm : o.connected with
    | true => simp [Turn.pairUp_concat, hlast, hlinked, hd, hm, hnot hm]
    | false => simp [hlast, hlinked, hd, hm]

theorem Event.announced_of_foreign {e : Event} (h : e.isForeign = true) : e.announced? = none := by
  cases e with
  | notice n => simp [isForeign] at h
  | _ => rfl

theorem Event.announced_of_isWork {e : Event} (h : e.isWork = true) : e.announced? = none := by
  cases e with
  | notice n => simp [isWork, isErrand] at h
  | _ => rfl

theorem Connection.peer_isSome_iff {c : Connection} : c.peer?.isSome = true ↔ c.state = .connected := by
  unfold peer? state
  cases c.phase <;> simp

def Notice.Apart (ns : List Notice) : Prop := ∀ n ∈ ns, n.turn? = none

namespace Session

open Notice

variable {config : Config} {s t : Session Unit Unit} {b b' : Buffers} {ms : List Message}

theorem remark_apart (config : Config) (refused : Nat) (m : Message) :
    (remark config refused m).filterMap Notice.turn? = [] := by
  unfold remark
  split_ifs <;> rfl

theorem Tells.apart (h : Tells Notice.turn? s t []) (hs : Apart s.ctx.notices) : Apart t.ctx.notices := by
  obtain ⟨said, hn, hsaid⟩ := h
  rw [hn]
  exact List.forall_mem_append.mpr ⟨hs, List.filterMap_eq_nil_iff.mp hsaid⟩

theorem writeOutbox_apart (write : Ring) (h : Apart s.ctx.notices) : Apart (s.writeOutbox write).1.ctx.notices :=
  (writeOutbox_tells (fun _ _ => rfl) s write).apart h

theorem process_apart (hs : Of config s) (h : Apart s.ctx.notices) (hp : s.process b = .ok (t, b', ms)) :
    Apart t.ctx.notices := by
  have hsnoc (ms : List Message) (m : Message) :
      [] = [] ++ (remark config (s.ctx.attempt + refusals ms) m).filterMap Notice.turn? := by rw [remark_apart]; rfl
  exact (process_tells (l := fun _ => []) (fun _ => rfl) rfl hsnoc (fun _ _ => rfl) hs hp).apart h

end Session

namespace Bot

open Notice World

variable {ω : Type} {S : System ω} {config : Config} {b b' b₁ : Bot ω} {o : Outcome} {os : List Outcome} {engine : Engine ω}

def Announces (lines : List Turn) (b b' : Bot ω) : Prop := b.engine.world.Shows Event.announced? lines b'.engine.world

theorem Announces.trans {lines lines' : List Turn} {b'' : Bot ω} (h : Announces lines b b') (h' : Announces lines' b' b'') :
    Announces (lines ++ lines') b b'' := Shows.trans h h'

theorem tell_announces (h : Apart b.session.ctx.notices) : Announces [] b (b.tell S) := by
  have all (ns : List Notice) (b : Bot ω) (hns : Apart ns) : Announces [] b (ns.foldl (notice S) b) := by
    induction ns generalizing b with
    | nil => exact .refl _
    | cons n ns ih =>
      obtain ⟨hn, hrest⟩ := List.forall_mem_cons.mp hns
      have hnotice : Announces n.turn?.toList b (b.notice S n) := .record S b.engine.world (.notice n)
      rw [hn] at hnotice
      exact hnotice.trans (ih (b.notice S n) hrest)
  exact all b.session.ctx.notices { b with session := b.session.told } h

theorem wrote_announces {r : Session Unit Unit × Ring} (h : Apart r.1.ctx.notices) : Announces [] b (b.wrote S r) :=
  tell_announces (b := { b with session := r.1, buffers := { b.buffers with write := r.2 } }) h

theorem onConnected_announces (h : Apart b.session.ctx.notices) :
    Announces (if b.engine.connection.state = .connected then [.made] else []) b (b.onConnected S) := by
  have hgreet : Apart (b.session.greet b.buffers.write).1.ctx.notices := by
    apply Session.writeOutbox_apart
    exact h
  have hpeer := Connection.peer_isSome_iff (c := b.engine.connection)
  unfold onConnected
  cases hp : b.engine.connection.peer? with
  | some peer =>
    rw [hp] at hpeer
    rw [if_pos (hpeer.mp rfl)]
    have hnotice : Announces [.made] b (b.notice S (.connected peer.text)) := .record S b.engine.world _
    exact hnotice.trans (wrote_announces hgreet)
  | none =>
    rw [hp] at hpeer
    rw [if_neg fun hs => absurd (hpeer.mpr hs) nofun]
    exact wrote_announces hgreet

theorem process_announces (hs : b.session.Of config) (hn : Apart b.session.ctx.notices) (h : b.process S = .ok b') :
    Announces [] b b' := by
  obtain ⟨⟨s, c, ms⟩, hp, h⟩ := Fault.bind_eq_ok.mp h
  obtain rfl := Except.ok.inj h
  exact tell_announces (b := { b with session := s, buffers := c }) (Session.process_apart hs hn hp)

theorem afterCycle_announces (hs : b.session.Of config) (hn : b.session.ctx.notices = [])
    (h : b.afterCycle S { o with stopRequested := false } = .ok (b', none)) :
    Announces ((if o.connected = true ∧ b.engine.connection.state = .connected then [.made] else []) ++
      if o.disconnected then [.lost] else []) b b' := by
  obtain ⟨b₂, hp, h⟩ := Fault.bind_eq_ok.mp h
  dsimp only at hp
  have hl := lookupFailed_leaves (S := S) b o.lookupFailed
  have ha : Announces [] b (if o.lookupFailed then b.onLookupFailed S else b) := by
    cases o.lookupFailed with
    | true => exact .record S b.engine.world _
    | false => exact .refl _
  generalize (if o.lookupFailed then b.onLookupFailed S else b) = b₀ at hp hl ha
  have hs₀ : b₀.session.Of config := hl.session_eq ▸ hs
  have hn₀ : b₀.session.ctx.notices = [] := by rw [hl.session_eq, hn]
  have hg := greeted_leaves (S := S) b₀ o.connected
  have hmade : Announces (if o.connected = true ∧ b.engine.connection.state = .connected then [.made] else []) b₀
      (if o.connected then b₀.onConnected S else b₀) := by
    rw [← hl.connection_eq]
    cases o.connected with
    | true => simpa using onConnected_announces (S := S) (b := b₀) (by rw [hn₀]; exact nofun)
    | false => simpa [Announces] using Shows.refl b₀.engine.world
  generalize (if o.connected then b₀.onConnected S else b₀) = b₁ at hp hg hmade
  have hs₁ : b₁.session.Of config := by
    rw [hg.session_eq]
    exact hs₀.greeted o.connected b₀.buffers
  have hn₁ : Apart b₁.session.ctx.notices := by
    rw [hg.session_eq]
    cases o.connected with
    | true => exact nofun
    | false => rw [Session.greeted, if_neg nofun, hn₀]; exact nofun
  have hprocess := process_announces hs₁ hn₁ hp
  obtain rfl := (Prod.mk.inj (Except.ok.inj h)).1
  have hlost : Announces (if o.disconnected then [.lost] else []) b₂ (if o.disconnected then b₂.onDisconnected S else b₂) := by
    cases o.disconnected with
    | true => exact .record S b₂.engine.world _
    | false => exact .refl _
  have hall := ((ha.trans hmade).trans hprocess).trans hlost
  rwa [List.nil_append, List.append_nil] at hall

theorem cycle_announces {timeout : Nat} {result : Except Engine.WaitError Outcome}
    (h : b.cycle S timeout = .ok (result, b')) : Announces [] b b' := by
  obtain ⟨now, world, hnow, hc, -, -⟩ := cycle_ok h
  obtain ⟨c, waited, w, c', hbefore, hw, hafter, he⟩ := Engine.cycle_ok hc
  have only {c c' : Cycle ω} (h : Cycle.Path S now c c') : Only (·.announced? = none) c.world c'.world :=
    h.only (fun _ => Event.announced_of_isWork) (fun _ => rfl) (fun _ => rfl) fun _ _ => rfl
  have hlook : Only (·.announced? = none) b.engine.world world := by
    have hd := now_does S b.engine.world
    rw [hnow] at hd
    exact .of_does_nil hd
  have hwait : Only (·.announced? = none) c.world w := .of_does (wait_does S hw) rfl
  have hall := ((hlook.trans (only hbefore)).trans hwait).trans (only hafter)
  rw [Announces, he]
  exact .of_only (fun _ => Event.announced_of_foreign) hall

theorem stop_announces {ended : Ended} (hn : Apart b.session.ctx.notices) (h : b.stop S = .ok (b', ended)) :
    Announces [] b b' := by
  have hnotice : Announces [] b (b.notice S .terminating) := .record S b.engine.world _
  unfold stop at h
  dsimp only at h
  split at h
  · obtain ⟨⟨result, b₂⟩, hc, h⟩ := Fault.bind_eq_ok.mp h
    have hb : b₂ = b' := by cases result <;> exact (Prod.mk.inj (Except.ok.inj h)).1
    subst hb
    refine (hnotice.trans (wrote_announces ?_)).trans (cycle_announces hc)
    apply Session.writeOutbox_apart
    exact hn
  · obtain ⟨rfl, -⟩ := Prod.mk.inj (Except.ok.inj h)
    exact hnotice

def announcedAfter : Except Engine.WaitError Outcome → List Turn
  | .ok o => o.announced
  | .error _ => []

theorem step_announces {ended : Option Ended} (hb : Sound config b) (h : b.step S = .ok (b', ended)) :
    ∃ result b₁, b.cycle S b.config.tuning.pollTimeout = .ok (result, b₁) ∧ Announces (announcedAfter result) b b' := by
  obtain ⟨result, b₁, hc, h⟩ := step_ok h
  have hcycle := cycle_announces hc
  refine ⟨result, b₁, hc, ?_⟩
  cases result with
  | error e =>
    obtain ⟨rfl, -⟩ := Prod.mk.inj h
    exact hcycle
  | ok o =>
    obtain ⟨now, world, -, hengine, hsession, -⟩ := cycle_ok hc
    have ht := Engine.cycle_turned hengine
    obtain ⟨b₂, hafter, hend⟩ := afterCycle_stop h
    have hs₁ : b₁.session.Of config := by
      rw [hsession]
      exact hb.session
    have hn₁ : b₁.session.ctx.notices = [] := by rw [hsession, hb.told]
    have hlines : ((if o.connected = true ∧ b₁.engine.connection.state = .connected then [Turn.made] else []) ++
        if o.disconnected then [.lost] else []) = o.announced := by
      have hlink : b₁.engine.connection.state = .connected ↔ _ := ht.state_iff
      simp only [hlink]
      unfold Outcome.announced
      cases o.connected <;> cases o.disconnected <;> simp
    have hturn := hcycle.trans (afterCycle_announces hs₁ hn₁ hafter)
    rw [hlines, List.nil_append] at hturn
    obtain ⟨-, rfl, -⟩ | ⟨-, last, hstop, -⟩ := hend
    · exact hturn
    · have hn₂ : b₂.session.ctx.notices = [] := by
        obtain ⟨s, c, b₃, hconverse, hl, ⟨-, hr⟩ | ⟨hasked, -⟩⟩ := afterCycle_ok hafter
        · obtain ⟨rfl, -⟩ := Prod.mk.inj hr
          rw [hl.session_eq]
          exact Session.converse_told hconverse
        · exact absurd hasked nofun
      have hlast := hturn.trans (stop_announces (by rw [hn₂]; exact nofun) hstop)
      rwa [List.append_nil] at hlast

inductive Runs (S : System ω) (config : Config) (engine : Engine ω) : List Outcome → Bot ω → Prop
  | create {b : Bot ω} (hb : create S config engine = .ok b) : Runs S config engine [] b
  | turn {os : List Outcome} {b b₁ b' : Bot ω} {o : Outcome} (h : Runs S config engine os b)
      (hc : b.cycle S b.config.tuning.pollTimeout = .ok (.ok o, b₁)) (ha : b₁.afterCycle S o = .ok (b', none)) :
      Runs S config engine (os ++ [o]) b'

theorem Runs.reached {settings : LinkSettings} {now : Nat} {world : World ω}
    (he : Engine.create S settings now world = .ok engine) (h : Runs S config engine os b) : Reached S config b := by
  induction h with
  | create hb => exact .create he hb
  | turn _ hc ha ih =>
    apply ih.step
    rw [step, hc]
    exact ha

/-- The lines since the engine was made: what they are, when they pair up, and what the last one tells. -/
structure Logged (engine : Engine ω) (os : List Outcome) (b : Bot ω) : Prop where
  written : engine.world.Shows Event.announced? (os.flatMap Outcome.announced) b.engine.world
  pairUp_iff : Turn.PairUp (os.flatMap Outcome.announced) ↔ ∀ o ∈ os, ¬(o.connected = true ∧ o.disconnected = true)
  last_iff : (os.flatMap Outcome.announced).getLast? = some .made ↔ b.engine.connection.state = .connected

theorem create_logged {settings : LinkSettings} {now : Nat} {world : World ω}
    (he : Engine.create S settings now world = .ok engine) (hb : create S config engine = .ok b) : Logged engine [] b := by
  obtain ⟨buffers, -, hb⟩ := Fault.bind_eq_ok.mp hb
  obtain rfl := Except.ok.inj hb
  have hs : engine.connection.state ≠ .connected := by
    rw [Engine.create_connection he]
    nofun
  constructor
  · exact .record S engine.world _
  · simp [Turn.PairUp]
  · exact ⟨nofun, fun h => absurd h hs⟩

theorem Logged.turn (hb : Sound config b) (h : Logged engine os b)
    (hc : b.cycle S b.config.tuning.pollTimeout = .ok (.ok o, b₁)) (ha : b₁.afterCycle S o = .ok (b', none)) :
    Logged engine (os ++ [o]) b' := by
  have hstep : b.step S = .ok (b', none) := by
    rw [step, hc]
    exact ha
  obtain ⟨result, b₂, hc', hturn⟩ := step_announces hb hstep
  obtain ⟨rfl, -⟩ := Prod.mk.inj (Except.ok.inj (hc.symm.trans hc'))
  obtain ⟨now, world, -, hengine, -, -⟩ := cycle_ok hc
  have ht := Engine.cycle_turned hengine
  obtain ⟨s, c, b₃, -, hl, ⟨-, hb₃⟩ | ⟨-, _, _, -, hb₃⟩⟩ := afterCycle_ok ha
  · obtain rfl := (Prod.mk.inj hb₃).1
    obtain ⟨hpair, hlast⟩ := Outcome.announced_after o h.last_iff ht.state_iff (fun hu hm => (ht.unlinked hu hm).1)
      ht.not_linked
    constructor
    all_goals rw [List.flatMap_append, List.flatMap_singleton]
    · exact h.written.trans hturn
    · rw [hpair, h.pairUp_iff, List.forall_mem_append, List.forall_mem_singleton]
    · rw [hlast, hl.connection_eq]
  · cases (Prod.mk.inj hb₃).2

theorem Runs.logged {settings : LinkSettings} {now : Nat} {world : World ω}
    (he : Engine.create S settings now world = .ok engine) (hr : Runs S config engine os b) : Logged engine os b := by
  induction hr with
  | create hb => exact create_logged he hb
  | turn h hc ha ih => exact ih.turn (h.reached he).sound hc ha

theorem lines_pair_up_unless_lost_at_once {settings : LinkSettings} {now : Nat} {world : World ω}
    (he : Engine.create S settings now world = .ok engine) (hr : Runs S config engine os b) :
    engine.world.Shows Event.announced? (os.flatMap Outcome.announced) b.engine.world ∧
    -- the lines pair up exactly if no cycle has both made and lost a connection
    (Turn.PairUp (os.flatMap Outcome.announced) ↔ ∀ o ∈ os, ¬(o.connected = true ∧ o.disconnected = true)) ∧
    ((os.flatMap Outcome.announced).getLast? = some .made ↔ b.engine.connection.state = .connected) ∧
    -- the next turn, also if it is the last
    ∀ b' ended, b.step S = .ok (b', ended) → ∃ result b₁,
      b.cycle S b.config.tuning.pollTimeout = .ok (result, b₁) ∧ Announces (announcedAfter result) b b' := by
  obtain ⟨hwritten, hpair, hlast⟩ := hr.logged he
  exact ⟨hwritten, hpair, hlast, fun _ _ => step_announces (hr.reached he).sound⟩

def outcomes (S : System ω) : Nat → Bot ω → Except Fault (List Outcome)
  | 0, _ => .ok []
  | n + 1, b => do
    let (result, b) ← b.cycle S b.config.tuning.pollTimeout
    match result with
    | .error _ => throw .zeroCapacity
    | .ok o =>
      let (b, ended) ← b.afterCycle S o
      if ended = none then return o :: (← outcomes S n b) else throw .zeroCapacity

theorem Runs.outcomes {n : Nat} {more : List Outcome} (h : Runs S config engine os b) (ho : b.outcomes S n = .ok more) :
    ∃ b', Runs S config engine (os ++ more) b' := by
  induction n generalizing os b more with
  | zero =>
    obtain rfl := Except.ok.inj ho
    exact ⟨b, by rwa [List.append_nil]⟩
  | succ n ih =>
    obtain ⟨⟨result, b₁⟩, hc, ho⟩ := Fault.bind_eq_ok.mp ho
    cases result with
    | error e => exact absurd ho nofun
    | ok o =>
      obtain ⟨⟨b₂, ended⟩, ha, ho⟩ := Fault.bind_eq_ok.mp ho
      dsimp only at ho
      split at ho
      · rename_i hended
        subst hended
        obtain ⟨rest, hrest, ho⟩ := Fault.bind_eq_ok.mp ho
        obtain rfl := Except.ok.inj ho
        obtain ⟨b', hb'⟩ := ih (h.turn hc ha) hrest
        exact ⟨b', by rwa [List.append_assoc] at hb'⟩
      · exact absurd ho nofun

theorem small.runs_ok {p : Script} {n : Nat} (h : (small.start p >>= outcomes Script.system n) = .ok os) :
    ∃ engine b, Engine.create Script.system small.linkSettings 0 { os := p } = .ok engine ∧
      Runs Script.system small engine os b := by
  obtain ⟨b, hb, h⟩ := Fault.bind_eq_ok.mp h
  unfold start at hb
  split at hb
  · rename_i engine he
    obtain ⟨b', hr⟩ := (Runs.create hb).outcomes h
    exact ⟨engine, b', he, hr⟩
  · exact absurd hb nofun

def parting : Readiness := { token := socketToken, closed := true }

def madeThenLost : Script where
  upcoming := [{}]
  turns := [{}, { lookup := some none }, { result := .events [writable] }, { result := .events [parting] }]

theorem lines_pair_up_unless_lost_at_once_of_madeThenLost :
    ∃ engine os b, Engine.create Script.system small.linkSettings 0 { os := madeThenLost } = .ok engine ∧
      Runs Script.system small engine os b ∧ engine.world.Shows Event.announced? [.made, .lost] b.engine.world ∧
      Turn.PairUp [.made, .lost] ∧ b.engine.connection.state ≠ .connected := by
  have heval : (small.start madeThenLost >>= outcomes Script.system 4) =
      .ok [{}, {}, { connected := true }, { disconnected := true }] := by decide +kernel
  obtain ⟨engine, b, he, hr⟩ := small.runs_ok heval
  obtain ⟨hwritten, hpair, hlast, -⟩ := lines_pair_up_unless_lost_at_once he hr
  exact ⟨engine, _, b, he, hr, hwritten, hpair.mpr (by decide), fun hs => absurd (hlast.mpr hs) (by decide)⟩

def lostAtOnce : Script where
  upcoming := [{}]
  turns := [{}, { lookup := some none }, { result := .events [writable, parting] }]

theorem lost_without_having_been_made :
    ¬∀ engine os b lines, Engine.create Script.system small.linkSettings 0 { os := lostAtOnce } = .ok engine →
      Runs Script.system small engine os b → engine.world.Shows Event.announced? lines b.engine.world →
      Turn.PairUp lines := by
  intro hall
  have heval : (small.start lostAtOnce >>= outcomes Script.system 3) =
      .ok [{}, {}, { connected := true, disconnected := true }] := by decide +kernel
  obtain ⟨engine, b, he, hr⟩ := small.runs_ok heval
  exact absurd (hall engine _ b _ he hr (hr.logged he).written) (by decide)

end Bot

end IrcLink
