import IrcLink.Proofs.Engine.Happenings
import IrcLink.Proofs.Engine.Lossless

/-!
Every socket is watched under one and the same token, so an event of a wait reaches whatever socket the engine has when it
comes to that event. A candidate that is dialled among the events of a wait is therefore struck by the ones after it, though
they were reported for the socket before.
-/

namespace IrcLink

/-- Makes an engine act that is connecting. -/
def Readiness.strikes (e : Readiness) : Bool := e.token = socketToken && (e.error || e.closed || e.writable)

namespace Engine

open Relation IrcLink.Cycle

variable {ω : Type} {S : System ω} {now : Nat} {c c' : Cycle ω} {e : Readiness} {s : Socket} {a : SocketAddress}
  {rest : List SocketAddress} {deadline : Nat}

theorem onLookup_not_connecting (h : c.connection.state ≠ .connecting) (r : Resolution) :
    (c.onLookup now r).connection.state ≠ .connecting := by
  unfold onLookup
  split
  · exact Connection.state_ne_connecting nofun
  · exact Connection.state_ne_connecting nofun
  · exact h

theorem collectAll_not_connecting (h : c.connection.state ≠ .connecting) :
    (collectAll S now c).connection.state ≠ .connecting := by
  induction c using collectAll.induct S now with
  | case1 c world hc =>
    rw [collectAll, hc]
    exact h
  | case2 c r world hc ih =>
    have hworld : ({ c with world } : Cycle ω).connection.state ≠ .connecting := h
    rw [collectAll, hc]
    exact ih (onLookup_not_connecting hworld r)

theorem staysOrLoses_not_connecting (h : StaysOrLoses S now s c c') (hs : c.connection.state ≠ .connecting) :
    c'.connection.state ≠ .connecting := by
  cases h with
  | stays h => rwa [Stage.state_eq_of_phase h.phase_eq]
  | loses => nofun

theorem onEvent_not_connecting (hs : c.connection.state ≠ .connecting) (h : c.onEvent S now e = .ok c') :
    c'.connection.state ≠ .connecting := by
  unfold onEvent at h
  split at h
  · rename_i hphase
    exact absurd (by rw [Connection.state, hphase]) hs
  · exact staysOrLoses_not_connecting (onConnected_staysOrLoses h) hs
  · obtain rfl := Except.ok.inj h
    exact hs

theorem dispatch_not_connecting (hs : c.connection.state ≠ .connecting) (h : dispatch S now c e = .ok c') :
    c'.connection.state ≠ .connecting := by
  have hr : ({ c with world := c.world.record S (.handled e) } : Cycle ω).connection.state ≠ .connecting := hs
  unfold dispatch at h
  split at h
  · exact onEvent_not_connecting hr h
  · split at h
    · obtain rfl := Except.ok.inj h
      exact collectAll_not_connecting hs
    · obtain rfl := Except.ok.inj h
      exact hr

theorem dispatchAll_not_connecting {events : List Readiness} (hs : c.connection.state ≠ .connecting)
    (h : events.foldlM (dispatch S now) c = .ok c') : c'.connection.state ≠ .connecting := by
  let R (c c' : Cycle ω) : Prop := c.connection.state ≠ .connecting → c'.connection.state ≠ .connecting
  have hnil (c : Cycle ω) : R c c := fun hs => hs
  have hcons {e : Readiness} {c c₁ c' : Cycle ω} (h : dispatch S now c e = .ok c₁) (hrest : R c₁ c') : R c c' :=
    fun hs => hrest (dispatch_not_connecting hs h)
  exact Fault.foldlM_ok hnil hcons h hs

theorem dispatch_calm (hphase : c.connection.phase = .connecting s a rest deadline) (he : e.strikes = false) :
    ∃ c', dispatch S now c e = .ok c' ∧ c'.connection = c.connection := by
  unfold dispatch
  dsimp only
  split
  · rename_i ht
    have hcalm : (e.error || e.closed || e.writable) = false := by simpa [Readiness.strikes, ht] using he
    obtain ⟨hhup, hw⟩ := Bool.or_eq_false_iff.mp hcalm
    refine ⟨{ c with world := c.world.record S (.handled e) }, ?_, rfl⟩
    simp [onEvent, hphase, onConnecting, hhup, hw]
  · split
    · obtain ⟨world, stop, hcompleted⟩ := onCompletion_of_phase S now
        (c := { c with world := c.world.record S (.handled e) }) (by rw [hphase]; nofun)
      exact ⟨_, rfl, by rw [hcompleted]⟩
    · exact ⟨_, rfl, rfl⟩

theorem dispatchAll_calm {events : List Readiness} (hphase : c.connection.phase = .connecting s a rest deadline)
    (he : ∀ e ∈ events, e.strikes = false) :
    ∃ c', events.foldlM (dispatch S now) c = .ok c' ∧ c'.connection = c.connection := by
  induction events generalizing c with
  | nil => exact ⟨c, rfl, rfl⟩
  | cons e events ih =>
    obtain ⟨c₁, h₁, hc₁⟩ : ∃ c₁, dispatch S now c e = .ok c₁ ∧ c₁.connection = c.connection :=
      dispatch_calm hphase (he e List.mem_cons_self)
    obtain ⟨c₂, h₂, hc₂⟩ := ih (by rwa [hc₁]) fun e' he' => he e' (List.mem_cons_of_mem _ he')
    refine ⟨c₂, ?_, hc₂.trans hc₁⟩
    rw [List.foldlM_cons, h₁]
    exact h₂

structure Abandons (s : Socket) (c c' : Cycle ω) : Prop where
  closed : ∃ es, c.world.Does es c'.world ∧ .call (.close s) () ∈ es
  phase : c'.connection.state = .disconnected ∨
    c'.connection.state = .connecting ∧ c'.connection.candidates.length < c.connection.candidates.length

theorem nextAddress_abandons {c₀ : Cycle ω} (hphase : c.connection.phase = .connecting s a rest deadline)
    (hc : c.connection = c₀.connection) (hw : c₀.world.Goes c.world) : Abandons s c₀ (c.nextAddress S now) := by
  obtain ⟨es, hd⟩ := hw
  have hnext : c.nextAddress S now = ({ c with world := c.world.abandon S s } : Cycle ω).dialFirst S now rest := by
    rw [nextAddress, hphase]
  have ht := dialFirst_tries S now { c with world := c.world.abandon S s } rest
  rw [← hnext] at ht
  constructor
  · have hderegister := World.call_does S c.world (c := .deregister s) nofun
    have hclose := World.call_does S (c.world.call S (.deregister s)).2 (c := .close s) nofun
    obtain ⟨es', hd', -⟩ := ht.calls.only
    refine ⟨_, ((hd.trans hderegister).trans hclose).trans hd', ?_⟩
    exact List.mem_append_left _ (List.mem_append_right _ (List.mem_singleton_self _))
  · have hleft : c₀.connection.candidates = rest := by rw [← hc, Connection.candidates, hphase]
    obtain hended | ⟨s', a', rest', _, hended, -⟩ := ht.ended
    · exact .inl (by rw [Connection.state, hended])
    · have hstate : (c.nextAddress S now).connection.state = .connecting := by rw [Connection.state, hended]
      refine .inr ⟨hstate, ?_⟩
      rw [hleft]
      exact ht.candidates_lt hstate

/-- What the operating system says of a socket that is reported writable decides what becomes of it. -/
def Decided (s : Socket) (a : SocketAddress) (c c' : Cycle ω) : Option Bool → Prop
  | none => c'.connection = c.connection
  | some false => Abandons s c c'
  | some true => c'.connection.phase = .connected s a ∨ Abandons s c c'

theorem dispatch_strike (hphase : c.connection.phase = .connecting s a rest deadline) (he : e.strikes = true) :
    ∃ c', dispatch S now c e = .ok c' ∧ ((e.error || e.closed) = true → Abandons s c c') ∧
      ((e.error || e.closed) = false → Decided s a c c' (hasConnected S (c.world.record S (.handled e)) s).1) := by
  obtain ⟨ht, hacts⟩ := Bool.and_eq_true_iff.mp he
  have ht : e.token = socketToken := of_decide_eq_true ht
  let r : Cycle ω := { c with world := c.world.record S (.handled e) }
  have hr : c.world.Goes r.world := ⟨_, World.record_does S c.world rfl⟩
  have hdispatch : dispatch S now c e = .ok (r.onConnecting S now e s a) := by
    simp [dispatch, ht, onEvent, hphase, r]
  refine ⟨_, hdispatch, ?_, ?_⟩
  · intro hhup
    have hgoes : c.world.Goes (r.world.call S (.takeError s)).2 := hr.trans ⟨_, World.call_does S r.world nofun⟩
    rw [onConnecting, if_pos hhup]
    exact nextAddress_abandons hphase rfl hgoes
  · intro hhup
    have hw : e.writable = true := by simpa [hhup] using hacts
    have hgoes : c.world.Goes (hasConnected S r.world s).2 := hr.trans (hasConnected_calls r.world s).only.goes
    rw [onConnecting, if_neg (by simp [hhup]), if_pos hw]
    change Decided s a c _ (hasConnected S r.world s).1
    cases hc : hasConnected S r.world s with
    | mk answer world =>
      rw [hc] at hgoes
      cases answer with
      | none => rfl
      | some made =>
        cases made with
        | false => exact nextAddress_abandons hphase rfl hgoes
        | true =>
          have hreregister := World.call_does S world (c := .reregister s socketToken .read) nofun
          dsimp only
          split
          · exact .inl rfl
          · rename_i h
            rw [h] at hreregister
            exact .inr (nextAddress_abandons hphase rfl (hgoes.trans ⟨_, hreregister⟩))

/-- A candidate that an event of a wait dials is left alone by what follows until an event strikes. That one abandons it if
it tells of an error or a hangup; if it only tells that a socket is writable, the operating system decides. Where a wait
reports one strike at most, nothing becomes of the candidate. -/
theorem candidate_dialled_in_a_batch {c₀ c₁ : Cycle ω} {before : List Readiness} {event : Readiness}
    (hbefore : before.foldlM (dispatch S now) c = .ok c₀) (hevent : dispatch S now c₀ event = .ok c₁)
    (hphase : c₁.connection.phase = .connecting s a rest deadline)
    (hdialled : c₀.connection.stats.dials < c₁.connection.stats.dials) :
    c.connection.state = .connecting ∧
    (∀ calm : List Readiness, (∀ e ∈ calm, e.strikes = false) → ∃ c₂, calm.foldlM (dispatch S now) c₁ = .ok c₂ ∧
      c₂.connection = c₁.connection ∧ ∀ e, e.strikes = true → ∃ c₃, dispatch S now c₂ e = .ok c₃ ∧
        ((e.error || e.closed) = true → Abandons s c₂ c₃) ∧
        ((e.error || e.closed) = false → Decided s a c₂ c₃ (hasConnected S (c₂.world.record S (.handled e)) s).1)) ∧
    ∀ left : List Readiness, (before ++ event :: left).countP Readiness.strikes ≤ 1 →
      ∃ c₂, left.foldlM (dispatch S now) c₁ = .ok c₂ ∧ c₂.connection = c₁.connection := by
  have hstate₀ : c₀.connection.state = .connecting := by
    by_contra hs
    exact dispatch_not_connecting hs hevent (by rw [Connection.state, hphase])
  -- nothing but a strike dials, so where there is only one the rest of the batch is calm
  have hstrikes : event.strikes = true := by
    by_contra hcalm
    cases hp : c₀.connection.phase with
    | connecting s' a' rest' deadline' =>
      obtain ⟨c', h, hc⟩ : ∃ c', dispatch S now c₀ event = .ok c' ∧ c'.connection = c₀.connection :=
        dispatch_calm hp (Bool.eq_false_iff.mpr hcalm)
      obtain rfl := Except.ok.inj (hevent.symm.trans h)
      rw [hc] at hdialled
      exact Nat.lt_irrefl _ hdialled
    | _ => simp [Connection.state, hp] at hstate₀
  refine ⟨?_, ?_, ?_⟩
  · by_contra hs
    exact dispatchAll_not_connecting hs hbefore hstate₀
  · intro calm hcalm
    obtain ⟨c₂, h₂, hc₂⟩ : ∃ c₂, calm.foldlM (dispatch S now) c₁ = .ok c₂ ∧ c₂.connection = c₁.connection :=
      dispatchAll_calm hphase hcalm
    refine ⟨c₂, h₂, hc₂, ?_⟩
    intro e he
    exact dispatch_strike (by rwa [hc₂]) he
  · intro left hcount
    apply dispatchAll_calm hphase
    rw [List.countP_append, List.countP_cons_of_pos hstrikes] at hcount
    have hnone : left.countP Readiness.strikes = 0 := by omega
    intro e he
    exact Bool.eq_false_iff.mpr (List.countP_eq_zero.mp hnone e he)

def broken : Readiness := { token := socketToken, error := true }

def ready : Readiness := { token := socketToken, writable := true }

def testAddress (host : UInt8) : SocketAddress := ⟨.v4 192 0 2 host, 6667, 0⟩

def threeAddresses : Script where
  upcoming := [{}, {}, {}]
  turns := [{}, { lookup := some (some [testAddress 1, testAddress 2, testAddress 3]) },
    { result := .events [broken, broken, ready] }]

theorem threeAddresses_ok : ∃ e b c c₁ c₂ c₃,
    create Script.system { host := "irc.example.net", port := 6667 } 0 { os := threeAddresses } = .ok e ∧
    Buffers.create 64 = .ok b ∧ Reached Script.system (.idle e b) (.handling 0 c [broken, broken, ready]) ∧
    dispatch Script.system 0 c broken = .ok c₁ ∧ dispatch Script.system 0 c₁ broken = .ok c₂ ∧
    dispatch Script.system 0 c₂ ready = .ok c₃ ∧ c.connection.stats.dials = 1 ∧ c₁.connection.stats.dials = 2 ∧
    c₁.connection.phase = .connecting 1 (testAddress 2) [testAddress 3] 5000 ∧
    c₂.connection.phase = .connecting 2 (testAddress 3) [] 5000 ∧
    c₃.connection.phase = .connected 2 (testAddress 3) := by
  have hS := Script.system_bounded
  obtain ⟨e, he⟩ : ∃ e,
    create Script.system { host := "irc.example.net", port := 6667 } 0 { os := threeAddresses } = .ok e := ⟨_, rfl⟩
  obtain ⟨b, hb⟩ : ∃ b, Buffers.create 64 = .ok b := ⟨_, rfl⟩
  have heval : (do
      let (_, e, b) ← e.cycle Script.system b 0 none
      let (_, e, b) ← e.cycle Script.system b 0 none
      let c ← Cycle.beforeWait Script.system 0 ⟨e.connection, b, e.world, {}⟩
      let waited := c.world.wait Script.system c.connection.settings.eventCapacity (waitTimeout c.connection 0 none)
      let c := { c with world := waited.2 }
      let c₁ ← dispatch Script.system 0 c broken
      let c₂ ← dispatch Script.system 0 c₁ broken
      let c₃ ← dispatch Script.system 0 c₂ ready
      return (waited.1, c.connection.stats.dials, c₁.connection.stats.dials, c₁.connection.phase, c₂.connection.phase,
        c₃.connection.phase)) = .ok (.events [broken, broken, ready], 1, 2,
          .connecting 1 (testAddress 2) [testAddress 3] 5000, .connecting 2 (testAddress 3) [] 5000,
          .connected 2 (testAddress 3)) := by
    obtain rfl := Except.ok.inj he
    obtain rfl := Except.ok.inj hb
    decide +kernel
  obtain ⟨_, e₁, b₁, h₁⟩ := cycle_isOk hS e b 0 none
  obtain ⟨_, e₂, b₂, h₂⟩ := cycle_isOk hS e₁ b₁ 0 none
  obtain ⟨c, hc⟩ := Cycle.beforeWait_isOk hS 0 ⟨e₂.connection, b₂, e₂.world, {}⟩
  simp only [h₁, h₂, hc, bind, Except.bind] at heval
  let waited := c.world.wait Script.system c.connection.settings.eventCapacity (waitTimeout c.connection 0 none)
  obtain ⟨c₁, hc₁⟩ := dispatch_isOk hS 0 { c with world := waited.2 } broken
  obtain ⟨c₂, hc₂⟩ := dispatch_isOk hS 0 c₁ broken
  obtain ⟨c₃, hc₃⟩ := dispatch_isOk hS 0 c₂ ready
  simp only [waited, hc₁, hc₂, hc₃, pure, Except.pure, Except.ok.injEq, Prod.mk.injEq] at heval
  obtain ⟨hwaited, hdials, hdials₁, hphase₁, hphase₂, hphase₃⟩ := heval
  have hp : Reached Script.system (.idle e b) (.idle e₂ b₂) :=
    (Reached.start.steps (cycle_steps h₁)).steps (cycle_steps h₂)
  have hwait : waited = (.events [broken, broken, ready], waited.2) := Prod.ext hwaited rfl
  exact ⟨e, b, { c with world := waited.2 }, c₁, c₂, c₃, he, hb, (hp.step (.begin none hc)).step (.ready hwait), hc₁, hc₂,
    hc₃, hdials, hdials₁, hphase₁, hphase₂, hphase₃⟩

theorem candidate_dialled_in_a_batch_of_three : ∃ c c₁ c₂ : Cycle Script,
    dispatch Script.system 0 c broken = .ok c₁ ∧ c.connection.state = .connecting ∧
    c₁.connection.phase = .connecting 1 (testAddress 2) [testAddress 3] 5000 ∧
    dispatch Script.system 0 c₁ broken = .ok c₂ ∧ Abandons 1 c₁ c₂ := by
  obtain ⟨_, _, c, c₁, c₂, _, -, -, -, h₁, h₂, -, hdials, hdials₁, hphase₁, -⟩ := threeAddresses_ok
  have hnone : ([] : List Readiness).foldlM (dispatch Script.system 0) c = .ok c := rfl
  obtain ⟨hstate, hcalm, -⟩ := candidate_dialled_in_a_batch hnone h₁ hphase₁ (by omega)
  obtain ⟨c₁', h₁', -, hstrike⟩ := hcalm [] nofun
  obtain rfl := Except.ok.inj h₁'
  obtain ⟨c₂', h₂', habandons, -⟩ := hstrike broken rfl
  exact ⟨c, c₁, c₂', h₁, hstate, hphase₁, h₂', habandons rfl⟩

/-- Of the candidates that this batch dials, the first is abandoned and the second declared connected by events that were
reported before either of them was opened. -/
theorem candidates_are_struck_in_their_batch : ∃ e b c c₁ c₂ c₃,
    create Script.system { host := "irc.example.net", port := 6667 } 0 { os := threeAddresses } = .ok e ∧
    Buffers.create 64 = .ok b ∧ Reached Script.system (.idle e b) (.handling 0 c [broken, broken, ready]) ∧
    dispatch Script.system 0 c broken = .ok c₁ ∧ c₁.connection.phase = .connecting 1 (testAddress 2) [testAddress 3] 5000 ∧
    dispatch Script.system 0 c₁ broken = .ok c₂ ∧ Abandons 1 c₁ c₂ ∧
    c₂.connection.phase = .connecting 2 (testAddress 3) [] 5000 ∧
    dispatch Script.system 0 c₂ ready = .ok c₃ ∧ c₃.connection.phase = .connected 2 (testAddress 3) := by
  obtain ⟨e, b, c, c₁, c₂, c₃, he, hb, hp, h₁, h₂, h₃, -, -, hphase₁, hphase₂, hphase₃⟩ := threeAddresses_ok
  obtain ⟨c₂', h₂', habandons, -⟩ : ∃ c₂', dispatch Script.system 0 c₁ broken = .ok c₂' ∧
      ((broken.error || broken.closed) = true → Abandons 1 c₁ c₂') ∧ _ := dispatch_strike hphase₁ rfl
  obtain rfl := Except.ok.inj (h₂.symm.trans h₂')
  exact ⟨e, b, c, c₁, c₂, c₃, he, hb, hp, h₁, hphase₁, h₂, habandons rfl, hphase₂, h₃, hphase₃⟩

end Engine

end IrcLink
