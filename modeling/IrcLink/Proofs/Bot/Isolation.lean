import IrcLink.Proofs.Bot.SideBySide
import IrcLink.Script

/-!
No connection leaves a trace in a later one. Without a connection the session and the buffers are as at the start
(`Reached.sound`), so two connections that see the same send the same, whatever was before them.
-/

namespace IrcLink

namespace Engine

variable {ω : Type} {S : System ω} {e e' : Engine ω} {b b' : Buffers} {C now : Nat}

theorem steps_hold {p q : Point ω} (h : Relation.ReflTransGen (Step S) p q) (hp : p.cycle.buffers.Hold C) :
    q.cycle.buffers.Hold C := by
  induction h with
  | refl => exact hp
  | tail _ h ih => exact h.carries.hold ih

theorem cycle_hold {timeout : Option Nat} {r : Except WaitError Outcome} (hb : b.Hold C)
    (h : e.cycle S b now timeout = .ok (r, e', b')) : b'.Hold C := steps_hold (cycle_steps h) hb

end Engine

namespace Bot

section

variable {ω : Type} {S : System ω} {config : Config} {b b' : Bot ω}

/-- Where the loop comes to on a fresh engine, each time before it waits. -/
inductive Reached (S : System ω) (config : Config) : Bot ω → Prop
  | create {settings : LinkSettings} {now : Nat} {world : World ω} {engine : Engine ω} {b : Bot ω}
      (he : Engine.create S settings now world = .ok engine) (hb : create S config engine = .ok b) : Reached S config b
  | step {b b' : Bot ω} (h : Reached S config b) (hs : b.step S = .ok (b', none)) : Reached S config b'

structure Sound (config : Config) (b : Bot ω) : Prop where
  session : b.session.Of config
  told : b.session.ctx.notices = []
  buffers : b.buffers.Hold config.tuning.bufferSize
  fresh : b.engine.connection.state ≠ .connected →
    b.session = .create config () ∧ b.buffers.Rewound config.tuning.bufferSize

theorem create_sound {engine : Engine ω} (h : create S config engine = .ok b) : Sound config b := by
  obtain ⟨buffers, hb, h⟩ := Fault.bind_eq_ok.mp h
  obtain rfl := Except.ok.inj h
  have hr := Buffers.Rewound.of_create hb
  exact ⟨.create config, rfl, hr.hold, fun _ => ⟨rfl, hr⟩⟩

theorem Sound.stays_fresh {c : Cycle ω} {s : Session Unit Unit} {d : Buffers} (h : Sound config b)
    (ht : Engine.Turned (b.engine.connection.state = .connected) b.buffers c)
    (hb : c.buffers.Hold config.tuning.bufferSize) (hu : c.connection.state ≠ .connected)
    (hc : Session.converse c.outcome.connected c.outcome.disconnected b.session c.buffers = .ok (s, d)) :
    s = .create config () ∧ d.Rewound config.tuning.bufferSize := by
  cases hd : c.outcome.disconnected with
  | true =>
    rw [hd] at hc
    exact Session.converse_parted h.session hb hc
  | false =>
    have hn : ¬(b.engine.connection.state = .connected ∨ c.outcome.connected = true) :=
      fun hl => hu (ht.state_iff.mpr ⟨hl, hd⟩)
    have hlinked : b.engine.connection.state ≠ .connected := fun hl => hn (.inl hl)
    have hmade : c.outcome.connected = false := Bool.eq_false_iff.mpr fun hl => hn (.inr hl)
    obtain ⟨hfs, hfb⟩ := h.fresh hlinked
    have hbuffers : c.buffers = b.buffers := (ht.unlinked hlinked hmade).2
    rw [hmade, hd, hbuffers, Session.converse_idle hfb.read.1 (by rw [hfs]; rfl) h.told] at hc
    obtain ⟨rfl, rfl⟩ := Prod.mk.inj (Except.ok.inj hc)
    exact ⟨hfs, hfb⟩

theorem Sound.step (h : Sound config b) (hs : b.step S = .ok (b', none)) : Sound config b' := by
  obtain ⟨result, b₁, hc, hs⟩ := step_ok hs
  cases result with
  | error e => exact absurd (Prod.mk.inj hs).2 nofun
  | ok o =>
    obtain ⟨now, world, -, hc, hsession, -⟩ := cycle_ok hc
    obtain ⟨s, c, b₂, hconv, hl, ⟨-, hr⟩ | ⟨-, _, _, -, hr⟩⟩ := afterCycle_ok hs
    · obtain rfl := (Prod.mk.inj hr).1
      rw [hsession] at hconv
      have ht := Engine.cycle_turned hc
      have hb₁ := Engine.cycle_hold h.buffers hc
      refine ⟨?_, ?_, ?_, ?_⟩
      · rw [hl.session_eq]
        exact h.session.converse hconv
      · rw [hl.session_eq]
        exact Session.converse_told hconv
      · rw [hl.buffers_eq]
        exact Session.converse_hold hb₁ hconv
      · intro hu
        rw [hl.connection_eq] at hu
        rw [hl.session_eq, hl.buffers_eq]
        exact h.stays_fresh ht hb₁ hu hconv
    · exact absurd (Prod.mk.inj hr).2 nofun

theorem Reached.sound (h : Reached S config b) : Sound config b := by
  induction h with
  | create _ hb => exact create_sound hb
  | step _ hs ih => exact ih.step hs

theorem Reached.run {n : Nat} (h : Reached S config b) (hr : run S n b = .ok (b', none)) : Reached S config b' := by
  induction n generalizing b with
  | zero =>
    obtain rfl := (Prod.mk.inj (Except.ok.inj hr)).1
    exact h
  | succ n ih =>
    obtain ⟨⟨b₁, ended⟩, hs, hr⟩ := Fault.bind_eq_ok.mp hr
    cases ended with
    | none => exact ih (h.step hs) hr
    | some ended => exact absurd (Prod.mk.inj (Except.ok.inj hr)).2 nofun

/-- In the next turn one of the events of the wait makes a connection on this socket. The cycle then stands here, and
these events are still to be handled. -/
inductive Establishes (S : System ω) (b : Bot ω) (s : Socket) : Cycle ω → List Readiness → Prop
  | made {now : Nat} {w₀ w : World ω} {c₀ c : Cycle ω} {before left : List Readiness} {event : Readiness}
      (hu : b.engine.connection.state ≠ .connected) (hn : b.engine.world.now S = (now, w₀))
      (hw : w₀.wait S b.engine.connection.settings.eventCapacity
        (Engine.waitTimeout b.engine.connection now (some b.config.tuning.pollTimeout)) =
          (.events (before ++ event :: left), w))
      (hb : before.foldlM (Engine.dispatch S now) ⟨b.engine.connection, b.buffers, w, {}⟩ = .ok c₀)
      (hu₀ : c₀.connection.state ≠ .connected) (he : Engine.dispatch S now c₀ event = .ok c) (hl : c.onLink s) :
      Establishes S b s c left

theorem cycle_unlinked_ok {result : Except Engine.WaitError Outcome} (hu : b.engine.connection.state ≠ .connected)
    (h : b.cycle S b.config.tuning.pollTimeout = .ok (result, b')) :
    ∃ now w₀ waited w, b.engine.world.now S = (now, w₀) ∧
      w₀.wait S b.engine.connection.settings.eventCapacity
        (Engine.waitTimeout b.engine.connection now (some b.config.tuning.pollTimeout)) = (waited, w) ∧
      Engine.Attended S now ⟨b.engine.connection, b.buffers, w, {}⟩ waited (result, b'.engine, b'.buffers) := by
  obtain ⟨now, w₀, hn, hc, -, -⟩ := cycle_ok h
  obtain ⟨c, hb, ha⟩ := Fault.bind_eq_ok.mp hc
  obtain rfl := Cycle.beforeWait_unlinked hu hb
  obtain ⟨waited, w, hw, ha⟩ := Engine.attend_ok ha
  exact ⟨now, w₀, waited, w, hn, hw, ha⟩

namespace Establishes

variable {s : Socket} {c : Cycle ω} {left : List Readiness} {r : Bot ω × Option Ended}

theorem unlinked (h : Establishes S b s c left) : b.engine.connection.state ≠ .connected := by
  cases h with
  | made hu => exact hu

theorem onLink (h : Establishes S b s c left) : c.onLink s := by
  cases h with
  | made _ _ _ _ _ _ hl => exact hl

theorem afresh (h : Establishes S b s c left) :
    c.buffers = b.buffers ∧ c.connection.flow = {} ∧ c.connection.writeInterest = false ∧ c.outcome.connected = true ∧
      c.outcome.disconnected = false := by
  cases h with
  | made hu hn hw hb hu₀ he hl =>
    obtain ⟨peer, hp⟩ := hl
    have hstage := Engine.dispatchAll_stage (Cycle.Stage.start ⟨b.engine.connection, b.buffers, _, {}⟩ rfl) hb
    exact Engine.dispatch_makes_afresh hstage hu₀ he (Connection.state_eq_connected.mpr ⟨s, peer, hp⟩)

theorem step_ok (h : Establishes S b s c left) (hr : b.step S = .ok r) :
    ∃ (now : Nat) (c' : Cycle ω) (o : Outcome) (b₁ : Bot ω), left.foldlM (Engine.dispatch S now) c = .ok c' ∧
      Engine.finish S now {} c' = (.ok o, b₁.engine, b₁.buffers) ∧ b₁.session = b.session ∧ b₁.afterCycle S o = .ok r := by
  cases h with
  | made hu hn hw hb hu₀ he hl =>
    obtain ⟨result, b₁, hc, hr⟩ := Bot.step_ok hr
    obtain ⟨-, -, -, -, hsession, -⟩ := cycle_ok hc
    obtain ⟨now, w₀, waited, w, hn', hw', ha⟩ := cycle_unlinked_ok hu hc
    obtain ⟨rfl, rfl⟩ := Prod.mk.inj (hn.symm.trans hn')
    obtain ⟨rfl, rfl⟩ := Prod.mk.inj (hw.symm.trans hw')
    generalize hresult : (result, b₁.engine, b₁.buffers) = cycled at ha
    cases ha with
    | events hall =>
      rw [List.foldlM_append] at hall
      obtain ⟨c₁, hb', hall⟩ := Fault.bind_eq_ok.mp hall
      obtain rfl := Except.ok.inj (hb.symm.trans hb')
      rw [List.foldlM_cons] at hall
      obtain ⟨c₁, he', hall⟩ := Fault.bind_eq_ok.mp hall
      obtain rfl := Except.ok.inj (he.symm.trans he')
      obtain ⟨rfl, -⟩ := Prod.mk.inj hresult
      exact ⟨_, _, _, b₁, hall, hresult.symm, hsession, hr⟩

theorem goes (h : Establishes S b s c left) (hr : b.step S = .ok r) : c.world.Goes r.1.engine.world := by
  obtain ⟨now, c', o, b₁, hall, hf, -, hr⟩ := h.step_ok hr
  have hg := Engine.finish_goes S now c'
  rw [hf] at hg
  exact ((Engine.dispatchAll_goes hall).trans hg).trans (afterCycle_goes hr)

end Establishes

theorem cycle_establishes {o : Outcome} (h : b.cycle S b.config.tuning.pollTimeout = .ok (.ok o, b'))
    (ho : o.connected = true) : ∃ s c left, Establishes S b s c left := by
  obtain ⟨_, _, -, hc, -, -⟩ := cycle_ok h
  have hu : b.engine.connection.state ≠ .connected := (Engine.cycle_turned hc).not_linked ho
  obtain ⟨now, w₀, waited, w, hn, hw, ha⟩ := cycle_unlinked_ok hu h
  generalize hresult : (Except.ok o, b'.engine, b'.buffers) = result at ha
  cases ha with
  | failed code => exact absurd (Prod.mk.inj hresult).1 nofun
  | interrupted =>
    obtain rfl := Except.ok.inj (Prod.mk.inj hresult).1
    rw [Engine.afterEvents_connected] at ho
    exact absurd ho nofun
  | events hall =>
    obtain rfl := Except.ok.inj (Prod.mk.inj hresult).1
    rw [Engine.afterEvents_connected] at ho
    obtain ⟨before, event, left, c₀, c, rfl, hbefore, hu₀, he, hs⟩ := Engine.dispatchAll_makes hu rfl hall ho
    obtain ⟨s, peer, hp⟩ := Connection.state_eq_connected.mp hs
    exact ⟨s, c, left, .made hu hn hw hbefore hu₀ he ⟨peer, hp⟩⟩

end

section

variable {ω₁ ω₂ : Type} {S₁ : System ω₁} {S₂ : System ω₂} {config : Config} {s₁ s₂ : Socket} {b₁ : Bot ω₁} {b₂ : Bot ω₂}

theorem establishes_alike {c₁ : Cycle ω₁} {c₂ : Cycle ω₂} {left : List Readiness} (hb₁ : Sound config b₁)
    (hb₂ : Sound config b₂) (h₁ : Establishes S₁ b₁ s₁ c₁ left) (h₂ : Establishes S₂ b₂ s₂ c₂ left)
    (hstop : c₁.outcome.stopRequested = c₂.outcome.stopRequested) :
    b₁.session = b₂.session ∧ Cycle.Paired s₁ s₂ c₁ c₂ := by
  obtain ⟨hs₁, hr₁⟩ := hb₁.fresh h₁.unlinked
  obtain ⟨hs₂, hr₂⟩ := hb₂.fresh h₂.unlinked
  obtain ⟨hbuf₁, hf₁, hi₁, hc₁, hd₁⟩ := h₁.afresh
  obtain ⟨hbuf₂, hf₂, hi₂, hc₂, hd₂⟩ := h₂.afresh
  have ha : c₁.buffers.Alike c₂.buffers := by
    rw [hbuf₁, hbuf₂]
    exact hr₁.alike hr₂
  exact ⟨hs₁.trans hs₂.symm, .up ⟨ha, hf₁.trans hf₂.symm, hi₁.trans hi₂.symm, hc₁.trans hc₂.symm, hd₁.trans hd₂.symm, hstop⟩
    h₁.onLink h₂.onLink⟩

theorem connections_echo {c₁ : Cycle ω₁} {c₂ : Cycle ω₂} {left : List Readiness} {r₁ r₁' : Bot ω₁ × Option Ended}
    {r₂ r₂' : Bot ω₂ × Option Ended} (hb₁ : Sound config b₁) (hb₂ : Sound config b₂) (h₁ : Establishes S₁ b₁ s₁ c₁ left)
    (h₂ : Establishes S₂ b₂ s₂ c₂ left) (hstop : c₁.outcome.stopRequested = c₂.outcome.stopRequested)
    (hr₁ : b₁.step S₁ = .ok r₁) (hr₂ : b₂.step S₂ = .ok r₂) (hr₁' : Serves S₁ s₁ r₁ r₁') (hr₂' : Serves S₂ s₂ r₂ r₂') :
    Echo s₁ s₂ c₁.world r₁'.1.engine.world c₂.world r₂'.1.engine.world := by
  obtain ⟨hs, hp⟩ := establishes_alike hb₁ hb₂ h₁ h₂ hstop
  obtain ⟨now₁, c₁', o₁, a₁, hall₁, hf₁, hs₁, ha₁⟩ := h₁.step_ok hr₁
  obtain ⟨now₂, c₂', o₂, a₂, hall₂, hf₂, hs₂, ha₂⟩ := h₂.step_ok hr₂
  have hs : a₁.session = a₂.session := by rw [hs₁, hs₂, hs]
  have hm := (Engine.dispatchAll_mirror hp hall₁ hall₂).trans (Engine.finish_goes S₁ now₁ c₁')
    (Engine.finish_goes S₂ now₂ c₂') Engine.finish_mirror
  rw [hf₁, hf₂] at hm
  have hm := hm.trans (afterCycle_goes ha₁) (afterCycle_goes ha₂) fun hagree => by
    cases hagree with
    | done hab => exact afterCycle_mirror hs hab ha₁ ha₂
  exact hm.echo hr₁'.goes hr₂'.goes fun hlevel => serves_echo hlevel hr₁' hr₂'

theorem connections_are_isolated (hb₁ : Reached S₁ config b₁) (hb₂ : Reached S₂ config b₂) :
    -- without a connection, all is as at the start
    (b₁.engine.connection.state ≠ .connected →
      b₁.buffers.read.isEmpty ∧ b₁.buffers.write.isEmpty ∧ b₁.session = .create config () ∧ b₁.session.pending = [] ∧
        b₁.session.discarding = false ∧ b₁.session.ctx.outbox = [] ∧ b₁.session.ctx.attempt = 0) ∧
    -- a connection is only made by an event of a wait
    (∀ o b', b₁.cycle S₁ b₁.config.tuning.pollTimeout = .ok (.ok o, b') → o.connected = true →
      ∃ s c left, Establishes S₁ b₁ s c left) ∧
    -- two connections whose cycles see the same from the moment on when they are made send the same
    ∀ c₁ c₂ left r₁ r₂ r₁' r₂' seg₁ seg₂, Establishes S₁ b₁ s₁ c₁ left → Establishes S₂ b₂ s₂ c₂ left →
      c₁.outcome.stopRequested = c₂.outcome.stopRequested → b₁.step S₁ = .ok r₁ → b₂.step S₂ = .ok r₂ →
      Serves S₁ s₁ r₁ r₁' → Serves S₂ s₂ r₂ r₂' → r₁'.1.engine.world.journal = c₁.world.journal ++ seg₁ →
      r₂'.1.engine.world.journal = c₂.world.journal ++ seg₂ → seg₁.sights = seg₂.sights →
      seg₁.sentOn s₁ = seg₂.sentOn s₂ := by
  refine ⟨fun hu => ?_, fun o b' => cycle_establishes, ?_⟩
  · obtain ⟨hs, hr, hw⟩ := hb₁.sound.fresh hu
    refine ⟨hr.1.isEmpty_iff.mpr rfl, hw.1.isEmpty_iff.mpr rfl, hs, ?_⟩
    rw [hs]
    exact ⟨rfl, rfl, rfl, rfl⟩
  · intro c₁ c₂ left r₁ r₂ r₁' r₂' seg₁ seg₂ h₁ h₂ hstop hr₁ hr₂ hr₁' hr₂' hj₁ hj₂ hsights
    exact (connections_echo hb₁.sound hb₂.sound h₁ h₂ hstop hr₁ hr₂ hr₁' hr₂').sentOn_eq hj₁ hj₂ hsights

def writable : Readiness := { token := socketToken, writable := true }

def wholeLine : Script where
  upcoming := [{ reads := [.data (Bytes.ofText "PING a\r\n")] }]
  turns := [{}, { lookup := some none }, { result := .events [writable] }, {}, {}]

def halfALineBefore : Script where
  upcoming := [{ reads := [.data (Bytes.ofText "PING"), .endOfStream] }, { reads := [.data (Bytes.ofText "PING a\r\n")] }]
  turns := [{}, { lookup := some none }, { result := .events [writable] }, {}, { lookup := some none },
    { result := .events [writable] }, {}, {}]

def small : Config where
  server := ⟨"1.2.3.4", 1⟩
  identity := ⟨["nick"], "name", "login"⟩
  tuning := { bufferSize := 64, retryDelay := 0 }

def small.start (p : Script) : Except Fault (Bot Script) :=
  match Engine.create Script.system small.linkSettings 0 { os := p } with
  | .ok e => create Script.system small e
  | .error _ => .error .zeroCapacity

def small.tryOut (p : Script) (n : Nat) (s : Socket) : Except Fault (List Sight × Bytes) := do
  let b ← start p
  let (b, ended) ← b.run Script.system n
  let now := b.engine.world.now Script.system
  let waited := now.2.wait Script.system b.engine.connection.settings.eventCapacity
    (Engine.waitTimeout b.engine.connection now.1 (some b.config.tuning.pollTimeout))
  let c ← Engine.dispatch Script.system now.1 ⟨b.engine.connection, b.buffers, waited.2, {}⟩ writable
  let (b₁, ended₁) ← b.step Script.system
  let (b₂, ended₂) ← b₁.step Script.system
  let (b₃, ended₃) ← b₂.step Script.system
  let seg : Journal := b₃.engine.world.journal.drop c.world.journal.length
  let link : Phase := .connected s ⟨.v4 1 2 3 4, 1, 0⟩
  if ended = none ∧ b.engine.connection.state ≠ .connected ∧ waited.1 = .events [writable] ∧ c.connection.phase = link ∧
      c.outcome.stopRequested = false ∧ ended₁ = none ∧ b₁.engine.connection.phase = link ∧ ended₂ = none ∧
      b₂.engine.connection.phase = link ∧ ended₃ = none then
    return (seg.sights, seg.sentOn s)
  else throw .zeroCapacity

theorem small.tryOut_ok {p : Script} {n : Nat} {s : Socket} {sights : List Sight} {bytes : Bytes}
    (h : tryOut p n s = .ok (sights, bytes)) :
    ∃ b' c r r' seg, Reached Script.system small b' ∧ Establishes Script.system b' s c [] ∧
      c.outcome.stopRequested = false ∧ b'.step Script.system = .ok r ∧ Serves Script.system s r r' ∧
      r'.1.engine.world.journal = c.world.journal ++ seg ∧ seg.sights = sights ∧ seg.sentOn s = bytes := by
  obtain ⟨b, hb, h⟩ := Fault.bind_eq_ok.mp h
  have hb : Reached Script.system small b := by
    unfold start at hb
    split at hb
    · rename_i he
      exact .create he hb
    · exact absurd hb nofun
  obtain ⟨⟨b', ended⟩, hrun, h⟩ := Fault.bind_eq_ok.mp h
  obtain ⟨c, hc, h⟩ := Fault.bind_eq_ok.mp h
  obtain ⟨⟨b₁, ended₁⟩, h₁, h⟩ := Fault.bind_eq_ok.mp h
  obtain ⟨⟨b₂, ended₂⟩, h₂, h⟩ := Fault.bind_eq_ok.mp h
  obtain ⟨⟨b₃, ended₃⟩, h₃, hlast⟩ := Fault.bind_eq_ok.mp h
  dsimp only at hlast
  split at hlast
  · rename_i hall
    obtain ⟨hended, hu, hw, hp, hstop, hended₁, hp₁, hended₂, hp₂, hended₃⟩ := hall
    subst hended hended₁ hended₂ hended₃
    have hw : _ = (Call.Waited.events ([] ++ writable :: []), _) := Prod.ext hw rfl
    have hm : Establishes Script.system b' s c [] := .made hu rfl hw rfl hu hc ⟨_, hp⟩
    have hs : Serves Script.system s (b₁, none) (b₃, none) := .turn hp₁ h₂ (.turn hp₂ h₃ (.done _))
    obtain ⟨_, seg, hj, -⟩ := (hm.goes h₁).trans hs.goes
    obtain ⟨hsights, hbytes⟩ := Prod.mk.inj (Except.ok.inj hlast)
    dsimp only at hj
    rw [hj, List.drop_left] at hsights hbytes
    exact ⟨b', c, _, _, seg, hb.run hrun, hm, hstop, h₁, hs, hj, hsights, hbytes⟩
  · exact absurd hlast nofun

theorem connections_are_isolated_half_a_line_before :
    ∃ b₁ b₂ c₁ c₂ r₁ r₂ r₁' r₂' seg₁ seg₂, Reached Script.system small b₁ ∧ Reached Script.system small b₂ ∧
      Establishes Script.system b₁ 0 c₁ [] ∧ Establishes Script.system b₂ 1 c₂ [] ∧
      b₁.step Script.system = .ok r₁ ∧ b₂.step Script.system = .ok r₂ ∧ Serves Script.system 0 r₁ r₁' ∧
      Serves Script.system 1 r₂ r₂' ∧ r₁'.1.engine.world.journal = c₁.world.journal ++ seg₁ ∧
      r₂'.1.engine.world.journal = c₂.world.journal ++ seg₂ ∧ seg₁.sights = seg₂.sights ∧
      seg₁.sentOn 0 = Bytes.ofText "NICK nick\r\nUSER login 8 * :name\r\nPONG a\r\n" ∧
      seg₁.sentOn 0 = seg₂.sentOn 1 := by
  let seen : List Sight := [.received (.bytes (Bytes.ofText "PING a\r\n")), .received .wouldBlock, .accepted (.accepted 33),
    .waited (.events []), .received .wouldBlock, .accepted (.accepted 8), .waited (.events [])]
  let said : Bytes := Bytes.ofText "NICK nick\r\nUSER login 8 * :name\r\nPONG a\r\n"
  have htry₁ : small.tryOut wholeLine 2 0 = .ok (seen, said) := by decide +kernel
  have htry₂ : small.tryOut halfALineBefore 5 1 = .ok (seen, said) := by decide +kernel
  obtain ⟨b₁, c₁, r₁, r₁', seg₁, hb₁, hm₁, hstop₁, hr₁, hs₁, hj₁, hsights₁, hsaid⟩ := small.tryOut_ok htry₁
  obtain ⟨b₂, c₂, r₂, r₂', seg₂, hb₂, hm₂, hstop₂, hr₂, hs₂, hj₂, hsights₂, -⟩ := small.tryOut_ok htry₂
  have hsights : seg₁.sights = seg₂.sights := hsights₁.trans hsights₂.symm
  obtain ⟨-, -, h⟩ := connections_are_isolated hb₁ hb₂
  exact ⟨b₁, b₂, c₁, c₂, r₁, r₂, r₁', r₂', seg₁, seg₂, hb₁, hb₂, hm₁, hm₂, hr₁, hr₂, hs₁, hs₂, hj₁, hj₂, hsights, hsaid,
    h c₁ c₂ [] r₁ r₂ r₁' r₂' seg₁ seg₂ hm₁ hm₂ (hstop₁.trans hstop₂.symm) hr₁ hr₂ hs₁ hs₂ hj₁ hj₂ hsights⟩

end

end Bot

end IrcLink
