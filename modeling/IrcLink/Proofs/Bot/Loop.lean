import IrcLink.Bot
import IrcLink.Proofs.Engine.Mirror
import IrcLink.Proofs.Session.Conversation

/-!
What one turn of the main loop does, said once. Between two cycles only the session and the buffers change, in a way that
depends on nothing else (`Session.converse`), and the engine neither sees nor sends anything.
-/

namespace IrcLink

namespace Session

/-- Without what it has noticed. -/
def told (s : Session Unit Unit) : Session Unit Unit := { s with ctx := { s.ctx with notices := [] } }

def greeted (connected : Bool) (s : Session Unit Unit) (b : Buffers) : Session Unit Unit × Buffers :=
  if connected then ((s.greet b.write).1.told, { b with write := (s.greet b.write).2 }) else (s, b)

def parted (disconnected : Bool) (s : Session Unit Unit) (b : Buffers) : Session Unit Unit × Buffers :=
  if disconnected then (s.reset, b.clear) else (s, b)

def converse (connected disconnected : Bool) (s : Session Unit Unit) (b : Buffers) :
    Except Fault (Session Unit Unit × Buffers) :=
  ((greeted connected s b).1.process (greeted connected s b).2).map fun (s, b, _) => parted disconnected s.told b

variable {config : Config} {connected disconnected : Bool} {s t : Session Unit Unit} {b b' c : Buffers} {C : Nat}

theorem converse_ok (h : converse connected disconnected s b = .ok (t, c)) :
    ∃ s' b' ms, (greeted connected s b).1.process (greeted connected s b).2 = .ok (s', b', ms) ∧
      parted disconnected s'.told b' = (t, c) := by
  obtain ⟨⟨s', b', ms⟩, hp, h⟩ := Fault.map_eq_ok.mp h
  exact ⟨s', b', ms, hp, h⟩

namespace Of

theorem told (h : Of config s) : Of config s.told := ⟨h.dispatcher, h.identity, h.channels⟩

theorem reset (h : Of config s) : Of config s.reset := ⟨h.dispatcher, h.identity, h.channels⟩

theorem greeted (h : Of config s) (connected : Bool) (b : Buffers) : Of config (greeted connected s b).1 := by
  cases connected with
  | true => exact (h.greet b.write).told
  | false => exact h

theorem parted (h : Of config s) (disconnected : Bool) (b : Buffers) : Of config (parted disconnected s b).1 := by
  cases disconnected with
  | true => exact h.reset
  | false => exact h

theorem converse (h : Of config s) (hc : converse connected disconnected s b = .ok (t, c)) : Of config t := by
  obtain ⟨s', b', ms, hp, hc⟩ := converse_ok hc
  have ht := ((h.greeted connected b).heard (process_heard hp)).told.parted disconnected b'
  rwa [hc] at ht

end Of

theorem greeted_hold (hb : b.Hold C) (connected : Bool) (s : Session Unit Unit) : (greeted connected s b).2.Hold C := by
  cases connected with
  | true => exact ⟨hb.read, writeOutbox_holds _ hb.write⟩
  | false => exact hb

theorem parted_hold (hb : b.Hold C) (disconnected : Bool) (s : Session Unit Unit) : (parted disconnected s b).2.Hold C := by
  cases disconnected with
  | true => exact hb.clear.hold
  | false => exact hb

theorem converse_hold (hb : b.Hold C) (hc : converse connected disconnected s b = .ok (t, c)) : c.Hold C := by
  obtain ⟨s', b', ms, hp, hc⟩ := converse_ok hc
  have hd := parted_hold (process_hold (greeted_hold hb connected s) hp) disconnected s'.told
  rwa [hc] at hd

theorem converse_told (hc : converse connected disconnected s b = .ok (t, c)) : t.ctx.notices = [] := by
  obtain ⟨s', b', ms, -, hc⟩ := converse_ok hc
  have ht : (parted disconnected s'.told b').1.ctx.notices = [] := by cases disconnected <;> rfl
  rwa [hc] at ht

theorem converse_parted (hs : Of config s) (hb : b.Hold C) (hc : converse connected true s b = .ok (t, c)) :
    t = create config () ∧ c.Rewound C := by
  obtain ⟨s', b', ms, hp, hc⟩ := converse_ok hc
  obtain ⟨rfl, rfl⟩ := Prod.mk.inj hc
  have hs' := ((hs.greeted connected b).heard (process_heard hp)).told
  exact ⟨hs'.reset_eq rfl, (process_hold (greeted_hold hb connected s) hp).clear⟩

theorem converse_idle (hr : b.read.Holds C []) (ho : s.ctx.outbox = []) (hn : s.ctx.notices = []) :
    converse false false s b = .ok (s, b) := by
  have ht : s.told = s := by
    unfold told
    rw [← hn]
  unfold converse
  have hp : (greeted false s b).1.process (greeted false s b).2 = .ok (s, b, []) := process_idle hr ho
  rw [hp]
  dsimp only [Except.map]
  rw [ht]
  rfl

theorem greeted_alike (ha : b.Alike b') (connected : Bool) (s : Session Unit Unit) :
    (greeted connected s b).1 = (greeted connected s b').1 ∧
      (greeted connected s b).2.Alike (greeted connected s b').2 := by
  cases connected with
  | true =>
    obtain ⟨hs, hw⟩ := writeOutbox_alike ((s.send (.nick s.ctx.nick)).send (.user s.ctx.identity.login s.ctx.identity.name))
      ha.write
    exact ⟨congrArg told hs, ha.read, hw⟩
  | false => exact ⟨rfl, ha⟩

theorem converse_alike (ha : b.Alike b') (hc : converse connected disconnected s b = .ok (t, c)) :
    ∃ c', converse connected disconnected s b' = .ok (t, c') ∧ c.Alike c' := by
  obtain ⟨u, d, ms, hp, hc⟩ := converse_ok hc
  obtain ⟨hg, hga⟩ := greeted_alike ha connected s
  rw [hg] at hp
  obtain ⟨d', hp', hd⟩ := process_alike hga hp
  cases disconnected with
  | true =>
    obtain ⟨rfl, rfl⟩ := Prod.mk.inj hc
    exact ⟨d'.clear, by rw [converse, hp']; rfl, hd.clear⟩
  | false =>
    obtain ⟨rfl, rfl⟩ := Prod.mk.inj hc
    exact ⟨d', by rw [converse, hp']; rfl, hd⟩

end Session

namespace Bot

variable {ω : Type} {S : System ω} {b b' b'' : Bot ω} {s t : Session Unit Unit} {c d : Buffers}

/-- Between two cycles: the session and the buffers have become these, and the engine has only said something. -/
structure Leaves (b : Bot ω) (s : Session Unit Unit) (c : Buffers) (b' : Bot ω) : Prop where
  config_eq : b'.config = b.config
  connection_eq : b'.engine.connection = b.engine.connection
  session_eq : b'.session = s
  buffers_eq : b'.buffers = c
  hush : b.engine.world.Hush b'.engine.world

namespace Leaves

theorem trans (h : Leaves b s c b') (h' : Leaves b' t d b'') : Leaves b t d b'' :=
  ⟨h'.config_eq.trans h.config_eq, h'.connection_eq.trans h.connection_eq, h'.session_eq, h'.buffers_eq,
    h.hush.trans h'.hush⟩

theorem refl (b : Bot ω) : Leaves b b.session b.buffers b := ⟨rfl, rfl, rfl, rfl, .refl _⟩

theorem after_setting (h : Leaves { b with session := t, buffers := d } s c b') : Leaves b s c b' :=
  ⟨h.config_eq, h.connection_eq, h.session_eq, h.buffers_eq, h.hush⟩

end Leaves

theorem notice_leaves (b : Bot ω) (n : Notice) : Leaves b b.session b.buffers (b.notice S n) :=
  ⟨rfl, rfl, rfl, rfl, World.record_hush _ rfl rfl⟩

theorem tell_leaves (b : Bot ω) : Leaves b b.session.told b.buffers (b.tell S) := by
  have all (ns : List Notice) (b : Bot ω) : Leaves b b.session b.buffers (ns.foldl (notice S) b) := by
    induction ns generalizing b with
    | nil => exact .refl b
    | cons n ns ih => exact (notice_leaves b n).trans (ih _)
  exact (all b.session.ctx.notices { b with session := b.session.told }).after_setting

theorem wrote_leaves (b : Bot ω) (r : Session Unit Unit × Ring) :
    Leaves b r.1.told { b.buffers with write := r.2 } (b.wrote S r) :=
  (tell_leaves { b with session := r.1, buffers := { b.buffers with write := r.2 } }).after_setting

theorem onConnected_leaves (b : Bot ω) :
    Leaves b (b.session.greet b.buffers.write).1.told { b.buffers with write := (b.session.greet b.buffers.write).2 }
      (b.onConnected S) := by
  unfold onConnected
  dsimp only
  split
  · rename_i peer _
    exact (notice_leaves b _).trans (wrote_leaves (b.notice S (.connected peer.text)) _)
  · exact wrote_leaves b _

theorem process_leaves (h : b.process S = .ok b') :
    ∃ s c ms, b.session.process b.buffers = .ok (s, c, ms) ∧ Leaves b s.told c b' := by
  obtain ⟨⟨s, c, ms⟩, hp, h⟩ := Fault.bind_eq_ok.mp h
  obtain rfl := Except.ok.inj h
  exact ⟨s, c, ms, hp, (tell_leaves { b with session := s, buffers := c }).after_setting⟩

theorem onDisconnected_leaves (b : Bot ω) : Leaves b b.session.reset b.buffers.clear (b.onDisconnected S) :=
  ⟨rfl, rfl, rfl, rfl, World.record_hush _ rfl rfl⟩

theorem greeted_leaves (b : Bot ω) (connected : Bool) :
    Leaves b (Session.greeted connected b.session b.buffers).1 (Session.greeted connected b.session b.buffers).2
      (if connected then b.onConnected S else b) := by
  cases connected with
  | true => exact onConnected_leaves b
  | false => exact .refl b

theorem parted_leaves (b : Bot ω) (disconnected : Bool) :
    Leaves b (Session.parted disconnected b.session b.buffers).1 (Session.parted disconnected b.session b.buffers).2
      (if disconnected then b.onDisconnected S else b) := by
  cases disconnected with
  | true => exact onDisconnected_leaves b
  | false => exact .refl b

theorem lookupFailed_leaves (b : Bot ω) (failed : Bool) :
    Leaves b b.session b.buffers (if failed then b.onLookupFailed S else b) := by
  cases failed with
  | true => exact notice_leaves b _
  | false => exact .refl b

theorem afterCycle_ok {o : Outcome} {r : Bot ω × Option Ended} (h : b.afterCycle S o = .ok r) :
    ∃ s c b₁, Session.converse o.connected o.disconnected b.session b.buffers = .ok (s, c) ∧ Leaves b s c b₁ ∧
      (o.stopRequested = false ∧ r = (b₁, none) ∨
        o.stopRequested = true ∧ ∃ b' ended, b₁.stop S = .ok (b', ended) ∧ r = (b', some ended)) := by
  obtain ⟨b₂, hp, h⟩ := Fault.bind_eq_ok.mp h
  have hl := lookupFailed_leaves (S := S) b o.lookupFailed
  generalize (if o.lookupFailed then b.onLookupFailed S else b) = b₀ at hp hl
  have hg := hl.trans (greeted_leaves (S := S) b₀ o.connected)
  rw [hl.session_eq, hl.buffers_eq] at hg
  generalize (if o.connected then b₀.onConnected S else b₀) = b₁ at hp hg
  obtain ⟨s, c, ms, hs, hq⟩ := process_leaves hp
  rw [hg.session_eq, hg.buffers_eq] at hs
  have hd := (hg.trans hq).trans (parted_leaves (S := S) b₂ o.disconnected)
  rw [hq.session_eq, hq.buffers_eq] at hd
  generalize (if o.disconnected then b₂.onDisconnected S else b₂) = b₃ at h hd
  refine ⟨_, _, b₃, ?_, hd, ?_⟩
  · rw [Session.converse, hs]
    rfl
  · cases hstop : o.stopRequested with
    | false =>
      rw [hstop] at h
      exact .inl ⟨rfl, (Except.ok.inj h).symm⟩
    | true =>
      rw [hstop] at h
      obtain ⟨⟨b', ended⟩, hb, h⟩ := Fault.bind_eq_ok.mp h
      exact .inr ⟨rfl, b', ended, hb, (Except.ok.inj h).symm⟩

theorem afterCycle_stop {o : Outcome} {ended : Option Ended} (h : b.afterCycle S o = .ok (b', ended)) :
    ∃ b₁, b.afterCycle S { o with stopRequested := false } = .ok (b₁, none) ∧
      (o.stopRequested = false ∧ b' = b₁ ∧ ended = none ∨
        o.stopRequested = true ∧ ∃ last, b₁.stop S = .ok (b', last) ∧ ended = some last) := by
  obtain ⟨b₂, hp, h⟩ := Fault.bind_eq_ok.mp h
  refine ⟨if o.disconnected then b₂.onDisconnected S else b₂, ?_, ?_⟩
  · unfold afterCycle
    dsimp only
    rw [hp]
    rfl
  · cases hstop : o.stopRequested with
    | false =>
      rw [hstop] at h
      obtain ⟨rfl, rfl⟩ := Prod.mk.inj (Except.ok.inj h)
      exact .inl ⟨rfl, rfl, rfl⟩
    | true =>
      rw [hstop] at h
      obtain ⟨⟨b₃, last⟩, hb, h⟩ := Fault.bind_eq_ok.mp h
      obtain ⟨rfl, rfl⟩ := Prod.mk.inj (Except.ok.inj h)
      exact .inr ⟨rfl, last, hb, rfl⟩

theorem cycle_ok {timeout : Nat} {result : Except Engine.WaitError Outcome} (h : b.cycle S timeout = .ok (result, b')) :
    ∃ now world, b.engine.world.now S = (now, world) ∧
      Engine.cycle S { b.engine with world } b.buffers now (some timeout) = .ok (result, b'.engine, b'.buffers) ∧
      b'.session = b.session ∧ b'.config = b.config := by
  obtain ⟨⟨_, engine, buffers⟩, hc, h⟩ := Fault.bind_eq_ok.mp h
  obtain ⟨rfl, rfl⟩ := Prod.mk.inj (Except.ok.inj h)
  exact ⟨_, _, rfl, hc, rfl, rfl⟩

def Ended.ofCycle : Except Engine.WaitError Outcome → Ended
  | .error e => .failed e
  | .ok _ => .stopped

theorem stop_ok {ended : Ended} (h : b.stop S = .ok (b', ended)) :
    b.engine.connection.state ≠ .connected ∧ ended = .stopped ∧ Leaves b b.session b.buffers b' ∨
      b.engine.connection.state = .connected ∧
        ∃ b₁ result, ended = .ofCycle result ∧
          Leaves b (b.session.quit (some quitReason) b.buffers.write).1.told
            { b.buffers with write := (b.session.quit (some quitReason) b.buffers.write).2 } b₁ ∧
          b₁.cycle S 0 = .ok (result, b') := by
  have hn := notice_leaves (S := S) b .terminating
  unfold stop at h
  dsimp only at h
  split at h
  · rename_i hs
    obtain ⟨⟨result, b₂⟩, hc, h⟩ := Fault.bind_eq_ok.mp h
    have hend : b₂ = b' ∧ ended = .ofCycle result := by
      cases result
      all_goals
        obtain ⟨rfl, rfl⟩ := Prod.mk.inj (Except.ok.inj h)
        exact ⟨rfl, rfl⟩
    obtain ⟨rfl, rfl⟩ := hend
    exact .inr ⟨hs, _, result, rfl, hn.trans (wrote_leaves (b.notice S .terminating) _), hc⟩
  · rename_i hs
    obtain ⟨rfl, rfl⟩ := Prod.mk.inj (Except.ok.inj h)
    exact .inl ⟨hs, rfl, hn⟩

theorem step_ok {r : Bot ω × Option Ended} (h : b.step S = .ok r) :
    ∃ result b₁, b.cycle S b.config.tuning.pollTimeout = .ok (result, b₁) ∧
      match result with
      | .error e => r = (b₁, some (.failed e))
      | .ok outcome => b₁.afterCycle S outcome = .ok r := by
  obtain ⟨⟨result, b₁⟩, hc, h⟩ := Fault.bind_eq_ok.mp h
  refine ⟨result, b₁, hc, ?_⟩
  cases result with
  | error e => exact (Except.ok.inj h).symm
  | ok outcome => exact h

theorem cycle_isOk (hS : S.Bounded) (b : Bot ω) (timeout : Nat) : ∃ result b', b.cycle S timeout = .ok (result, b') := by
  obtain ⟨r, e', c, hc⟩ := Engine.cycle_isOk hS { b.engine with world := (b.engine.world.now S).2 } b.buffers
    (b.engine.world.now S).1 (some timeout)
  rw [cycle]
  dsimp only
  rw [hc]
  exact ⟨_, _, rfl⟩

theorem stop_isOk (hS : S.Bounded) (b : Bot ω) : ∃ b' ended, b.stop S = .ok (b', ended) := by
  unfold stop
  dsimp only
  split
  · obtain ⟨result, b', hc⟩ := cycle_isOk hS ((b.notice S .terminating).wrote S
      ((b.notice S .terminating).session.quit (some quitReason) (b.notice S .terminating).buffers.write)) 0
    rw [hc]
    cases result <;> exact ⟨_, _, rfl⟩
  · exact ⟨_, _, rfl⟩

theorem afterCycle_isOk (hS : S.Bounded) (b : Bot ω) (o : Outcome) : ∃ r, b.afterCycle S o = .ok r := by
  unfold afterCycle
  dsimp only
  generalize (if o.connected then _ else _) = b₁
  obtain ⟨t, c, ms, hp⟩ := b₁.session.process_isOk b₁.buffers
  rw [process, hp]
  dsimp only [bind, Except.bind, pure, Except.pure]
  split
  · obtain ⟨b', ended, hs⟩ := stop_isOk hS (if o.disconnected then
      ({ b₁ with session := t, buffers := c }.tell S).onDisconnected S else { b₁ with session := t, buffers := c }.tell S)
    rw [hs]
    exact ⟨_, rfl⟩
  · exact ⟨_, rfl⟩

theorem step_isOk (hS : S.Bounded) (b : Bot ω) : ∃ r, b.step S = .ok r := by
  obtain ⟨result, b', hc⟩ := cycle_isOk hS b b.config.tuning.pollTimeout
  rw [step, hc]
  cases result with
  | error e => exact ⟨_, rfl⟩
  | ok o => exact afterCycle_isOk hS b' o

theorem run_isOk (hS : S.Bounded) (n : Nat) (b : Bot ω) : ∃ r, run S n b = .ok r := by
  induction n generalizing b with
  | zero => exact ⟨_, rfl⟩
  | succ n ih =>
    obtain ⟨⟨b', ended⟩, hs⟩ := step_isOk hS b
    rw [run, hs]
    cases ended with
    | some ended => exact ⟨_, rfl⟩
    | none => exact ih b'

end Bot

end IrcLink
