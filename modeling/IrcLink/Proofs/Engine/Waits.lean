import IrcLink.Proofs.Engine.Flush
import IrcLink.Proofs.Engine.Turns

/-!
Waits that fail or are cut short. A cycle hands over the events of its own wait and no others: none if the wait was
interrupted, and a wait that fails ends its cycle before anything is done that the clock would make due. What was done ahead
of the wait stands, though. A connection that was lost there is lost, and as a failed cycle has no outcome, no outcome ever
tells of it.
-/

namespace IrcLink

def Call.Waited.ready : Call.Waited → List Readiness
  | .events ready => ready
  | _ => []

def Event.reported : Event → List Readiness
  | .call (.wait _ _) answer => Call.Waited.ready answer
  | _ => []

theorem Event.reported_of_waitTimeout {e : Event} (h : e.waitTimeout? = none) : e.reported = [] := by
  unfold reported
  split
  · simp [waitTimeout?] at h
  · rfl

namespace World

variable {ω : Type} {w w' : World ω} {before after : List Event} {limit : Option Nat} {answer : Call.Waited}

theorem HandsNone.shows (h : w.HandsNone w') : w.Shows Event.handled? [] w' :=
  .of_only (fun _ => Event.handled_of_foreign) h

def Balanced (w w' : World ω) : Prop := ∃ es, w.Does es w' ∧ es.filterMap Event.handled? = es.flatMap Event.reported

theorem Balanced.trans {w'' : World ω} (h : w.Balanced w') (h' : w'.Balanced w'') : w.Balanced w'' := by
  obtain ⟨es, hd, he⟩ := h
  obtain ⟨es', hd', he'⟩ := h'
  refine ⟨es ++ es', hd.trans hd', ?_⟩
  rw [List.filterMap_append, List.flatMap_append, he, he']

theorem WaitsOnce.balanced (h : w.WaitsOnce before limit answer after w')
    (hbefore : before.filterMap Event.handled? = []) (hafter : after.filterMap Event.handled? = answer.ready) :
    w.Balanced w' := by
  obtain ⟨⟨capacity, hd⟩, hwaitless, hwaitless'⟩ := h
  have hnone : before.flatMap Event.reported = [] :=
    List.flatMap_eq_nil_iff.mpr fun e he => Event.reported_of_waitTimeout (hwaitless e he)
  have hnone' : after.flatMap Event.reported = [] :=
    List.flatMap_eq_nil_iff.mpr fun e he => Event.reported_of_waitTimeout (hwaitless' e he)
  refine ⟨_, hd, ?_⟩
  rw [List.filterMap_append, List.filterMap_cons_none rfl, hbefore, hafter, List.flatMap_append, List.flatMap_cons,
    hnone, hnone', List.append_nil]
  rfl

end World

namespace Engine

open IrcLink.Cycle

variable {ω : Type} {S : System ω} {now : Nat} {c c' : Cycle ω} {e e' : Engine ω} {b b' : Buffers}
  {timeout : Option Nat} {r : Except WaitError Outcome} {answer : Call.Waited}

theorem onCompletion_handsNone (S : System ω) (now : Nat) (c : Cycle ω) :
    c.world.HandsNone (onCompletion S now c).world := by
  obtain ⟨rs, world, stop, hd, -, heq⟩ := onCompletion_eq S now c
  rw [heq]
  refine ⟨_, hd, ?_⟩
  simp [Event.handled?]

theorem dispatch_hands {event : Readiness} (h : dispatch S now c event = .ok c') :
    c.world.Shows Event.handled? [event] c'.world := by
  have hr : c.world.Shows Event.handled? [event] (c.world.record S (.handled event)) := .record S c.world _
  obtain ⟨-, h⟩ | ⟨-, rfl⟩ := dispatch_task h
  · exact hr.trans h.handsNone.shows
  · exact hr.trans (onCompletion_handsNone S now _).shows

theorem dispatchAll_hands {events : List Readiness} (h : events.foldlM (dispatch S now) c = .ok c') :
    c.world.Shows Event.handled? events c'.world := by
  induction events generalizing c with
  | nil =>
    obtain rfl := Except.ok.inj h
    exact .refl _
  | cons event events ih =>
    rw [List.foldlM_cons] at h
    obtain ⟨c₁, h₁, h⟩ := Fault.bind_eq_ok.mp h
    exact (dispatch_hands h₁).trans (ih h)

theorem afterEvents_handsNone (S : System ω) (now : Nat) (c : Cycle ω) :
    c.world.HandsNone (c.afterEvents S now (World.startLookup S)).world := by
  obtain h | ⟨retryAt, hphase, hdue⟩ := afterEvents_cases S now c
  · exact h.handsNone
  · exact (afterEvents_asks hphase hdue).only (fun _ => Event.handled_of_isErrand) fun _ _ => rfl

theorem Attended.hands (h : Attended S now c answer (r, e', b')) :
    c.world.Shows Event.handled? answer.ready e'.world := by
  cases h with
  | failed code => exact .refl _
  | interrupted => exact (afterEvents_handsNone S now c).shows
  | @events ready c' hd =>
    have hs := (dispatchAll_hands hd).trans (afterEvents_handsNone S now c').shows
    rwa [List.append_nil] at hs

theorem Attended.poller_eq (h : Attended S now c answer (r, e', b')) : e'.poller = {} := by
  cases h <;> rfl

theorem cycle_of_poller (e : Engine ω) (poller : Poller) :
    cycle S { e with poller } b now timeout = e.cycle S b now timeout := by
  simp only [cycle, attend_eq]

/-- What a cycle comes to that ends with its wait, and the turn that the connection has taken by then: nothing has happened
at all if there was no link, and a link stands where it stood or is lost. -/
inductive CutShort (now : Nat) (c c' : Connection) (before : List Event) : List Turn → Prop
  | unlinked (hs : c.state ≠ .connected) (hc : c' = c) (hn : before = []) : CutShort now c c' before []
  | stays (hs : c.state = .connected) (hphase : c'.phase = c.phase) (hl : c'.stats.losses = c.stats.losses) :
      CutShort now c c' before []
  | loses (hs : c.state = .connected) (hphase : c'.phase = .disconnected (now + c.settings.retryDelay))
      (hl : c'.stats.losses = c.stats.losses + 1) : CutShort now c c' before [.lost]

theorem beforeWait_cutShort {before : List Event} (h : c.beforeWait S now = .ok c') (hd : c.world.Does before c'.world) :
    CutShort now c.connection c'.connection before (c.connection.turn? c'.connection).toList := by
  by_cases hs : c.connection.state = .connected
  · obtain ⟨s, peer, hphase⟩ := Connection.state_eq_connected.mp hs
    have hsettings := (beforeWait_work h).path.rests.settings_eq
    cases beforeWait_staysOrLoses hphase h with
    | stays hk =>
      have hs' : c'.connection.state = .connected := (Stage.state_eq_of_phase hk.phase_eq).trans hs
      simp only [Connection.turn?, hs, hs', if_true, Option.toList_none]
      exact .stays hs hk.phase_eq hk.losses_eq
    | @loses c₁ hk =>
      have hs' : (c₁.lose S now s).connection.state ≠ .connected := (by decide : State.disconnected ≠ .connected)
      simp only [Connection.turn?, hs, hs', if_true, if_false, Option.toList_some]
      refine .loses hs ?_ (congrArg (· + 1) hk.losses_eq)
      rw [← hsettings]
      rfl
  · obtain rfl := beforeWait_unlinked hs h
    simp only [Connection.turn?, hs, if_false, Option.toList_none]
    exact .unlinked hs rfl (hd.unique (.refl _))

theorem cycle_hands (h : e.cycle S b now timeout = .ok (r, e', b')) :
    e'.poller = {} ∧ ∃ before limit answer after, e.world.WaitsOnce before limit answer after e'.world ∧
      before.filterMap Event.handled? = [] ∧ after.filterMap Event.handled? = answer.ready ∧
      (∀ f, r = .error f ↔ answer = .failed f.code) ∧
      ∀ f, r = .error f → after = [] ∧ CutShort now e.connection e'.connection before (e.turns S b now timeout) := by
  obtain ⟨c, hc, h⟩ := Fault.bind_eq_ok.mp h
  obtain ⟨answer, world, hw, ha⟩ := attend_ok h
  obtain ⟨before, hbefore, hwaitless⟩ : World.Only _ e.world c.world := (beforeWait_work hc).path.waitless
  obtain ⟨after, hafter, hwaitless'⟩ : World.Only _ world e'.world := ha.waitless
  have hnone : e.world.Shows Event.handled? [] c.world := (beforeWait_task hc).handsNone.shows
  have hready : world.Shows Event.handled? answer.ready e'.world := ha.hands
  refine ⟨ha.poller_eq, before, _, answer, after,
    ⟨⟨_, hbefore.trans ((World.wait_does S hw).trans hafter)⟩, hwaitless, hwaitless'⟩,
    World.Shows.unique (.of_does (fun _ => Event.handled_of_foreign) hbefore) hnone,
    World.Shows.unique (.of_does (fun _ => Event.handled_of_foreign) hafter) hready, ha.error_iff, ?_⟩
  rintro f rfl
  cases ha with
  | failed code =>
    have hcut : CutShort now e.connection c.connection before (e.connection.turn? c.connection).toList :=
      beforeWait_cutShort hc hbefore
    have hturns : e.turns S b now timeout = (e.connection.turn? c.connection).toList := by
      rw [turns, hc]
      dsimp only
      rw [hw, List.append_nil]
    rw [hturns]
    exact ⟨hafter.unique (.refl _), hcut⟩

inductive Answers (S : System ω) (first : Engine ω) : List (Except WaitError Outcome × List Turn) → Engine ω → Prop
  | start : Answers S first [] first
  | poll {rs : List (Except WaitError Outcome × List Turn)} {e e' : Engine ω} {b b' : Buffers} {now : Nat}
      {timeout : Option Nat} {r : Except WaitError Outcome} (hp : Answers S first rs e)
      (h : e.cycle S b now timeout = .ok (r, e', b')) : Answers S first (rs ++ [(r, e.turns S b now timeout)]) e'

def told (rs : List (Except WaitError Outcome × List Turn)) : List Turn :=
  rs.flatMap fun
    | (.ok o, _) => o.turns
    | (.error _, _) => []

def untold (rs : List (Except WaitError Outcome × List Turn)) : List Turn :=
  rs.flatMap fun
    | (.ok _, _) => []
    | (.error _, turns) => turns

/-- How a run stands: it has handed over what its waits have reported, and outcomes have told of all turns but some losses. -/
structure Accounts (first e : Engine ω) (rs : List (Except WaitError Outcome × List Turn)) : Prop where
  balanced : first.world.Balanced e.world
  untold_lost : ∀ t ∈ untold rs, t = .lost
  losses_eq : e.connection.stats.losses = (told rs).count .lost + (untold rs).length
  made_eq : (told rs).count .made =
    (told rs).count .lost + (untold rs).length + if e.connection.state = .connected then 1 else 0

namespace Accounts

variable {first : Engine ω} {rs : List (Except WaitError Outcome × List Turn)} {o : Outcome} {f : WaitError}
  {ts : List Turn}

theorem start (hs : first.connection.state ≠ .connected) (hl : first.connection.stats.losses = 0) :
    Accounts first first [] := by
  refine ⟨⟨[], .refl _, rfl⟩, nofun, hl, ?_⟩
  simp [told, untold, hs]

theorem told_by (ha : Accounts first e rs) (hb : e.world.Balanced e'.world)
    (ht : Turned (e.connection.state = .connected) b ⟨e'.connection, b', e'.world, o⟩)
    (hl : e'.connection.stats.losses = e.connection.stats.losses + if o.disconnected then 1 else 0) :
    Accounts first e' (rs ++ [(.ok o, ts)]) := by
  have htold : told (rs ++ [(.ok o, ts)]) = told rs ++ o.turns := by simp [told]
  have huntold : untold (rs ++ [(.ok o, ts)]) = untold rs := by simp [untold]
  have hmade := ha.made_eq
  have hlosses := ha.losses_eq
  have hturned := ht.balance
  dsimp only at hturned
  constructor
  · exact ha.balanced.trans hb
  · rw [huntold]
    exact ha.untold_lost
  · rw [htold, huntold, List.count_append, Outcome.turns_count_lost]
    omega
  · rw [htold, huntold, List.count_append, List.count_append, Outcome.turns_count_lost, Outcome.turns_count_made]
    omega

theorem cut_short (ha : Accounts first e rs) (hb : e.world.Balanced e'.world) {before : List Event} {now : Nat}
    (hc : CutShort now e.connection e'.connection before ts) : Accounts first e' (rs ++ [(.error f, ts)]) := by
  have htold : told (rs ++ [(.error f, ts)]) = told rs := by simp [told]
  have huntold : untold (rs ++ [(.error f, ts)]) = untold rs ++ ts := by simp [untold]
  have hmade := ha.made_eq
  have hlosses := ha.losses_eq
  have hsame : ∀ t ∈ ts, t = .lost := by cases hc <;> simp
  constructor
  · exact ha.balanced.trans hb
  · rw [huntold]
    exact List.forall_mem_append.mpr ⟨ha.untold_lost, hsame⟩
  all_goals rw [htold, huntold, List.length_append]
  · cases hc with
    | unlinked _ hc => simp [hc, hlosses]
    | stays _ _ hl => simp [hl, hlosses]
    | loses _ _ hl => simp [hl, hlosses, Nat.add_assoc]
  · cases hc with
    | unlinked _ hc => simp [hc, hmade]
    | stays _ hphase => simp [Stage.state_eq_of_phase hphase, hmade]
    | loses hs hphase =>
      have hs' : e'.connection.state = .disconnected := by rw [Connection.state, hphase]
      simp [hmade, hs, hs', Nat.add_assoc]

end Accounts

theorem only_losses_go_untold (S : System ω) :
    (∀ (e : Engine ω) b now timeout r e' b', e.cycle S b now timeout = .ok (r, e', b') →
      -- whatever an earlier wait has left in the list counts for nothing, and nothing is left for a later one
      (∀ poller, cycle S { e with poller } b now timeout = .ok (r, e', b')) ∧ e'.poller.ready = [] ∧
      ∃ before limit answer after, e.world.WaitsOnce before limit answer after e'.world ∧
        -- the events that are handed over are those of the wait, all of them and in their order
        before.filterMap Event.handled? = [] ∧ after.filterMap Event.handled? = answer.ready ∧
        (∀ f, r = .error f ↔ answer = .failed f.code) ∧
        (∀ o, r = .ok o → o.turns = e.turns S b now timeout) ∧
        ∀ f, r = .error f →
          after = [] ∧ CutShort now e.connection e'.connection before (e.turns S b now timeout)) ∧
    ∀ settings now w first rs e, create S settings now w = .ok first → Answers S first rs e → Accounts first e rs := by
  constructor
  · intro e b now timeout r e' b' h
    obtain ⟨hpoller, before, limit, answer, after, hwaits, hbefore, hafter, herror, hcut⟩ := cycle_hands h
    refine ⟨fun poller => (cycle_of_poller e poller).trans h, congrArg Poller.ready hpoller,
      before, limit, answer, after, hwaits, hbefore, hafter, herror, ?_, hcut⟩
    rintro o rfl
    exact (cycle_told h).turns_eq
  · intro settings now w first rs e hfirst hrun
    induction hrun with
    | start =>
      apply Accounts.start
      all_goals rw [create_connection hfirst]
      · nofun
      · rfl
    | @poll rs e e' b b' now timeout r _ h ih =>
      obtain ⟨-, before, limit, answer, after, hwaits, hbefore, hafter, -, hcut⟩ := cycle_hands h
      have hbalanced := hwaits.balanced hbefore hafter
      cases r with
      | error f => exact ih.cut_short hbalanced (hcut f rfl).2
      | ok o =>
        obtain ⟨hturns, hlosses⟩ := cycle_told h
        rw [← hturns, Outcome.turns_count_lost] at hlosses
        exact ih.told_by hbalanced (cycle_turned h) hlosses

def pollTimes (S : System ω) : Nat → Engine ω → Buffers → Except Fault (List (Except WaitError Outcome × List Turn))
  | 0, _, _ => .ok []
  | n + 1, e, b => do
    let (r, e', b') ← e.cycle S b 0 none
    return (r, e.turns S b 0 none) :: (← pollTimes S n e' b')

theorem Answers.polled {first : Engine ω} {rs more : List (Except WaitError Outcome × List Turn)} {n : Nat}
    (h : Answers S first rs e) (hp : pollTimes S n e b = .ok more) : ∃ e', Answers S first (rs ++ more) e' := by
  induction n generalizing rs more e b with
  | zero =>
    obtain rfl := Except.ok.inj hp
    exact ⟨e, by rwa [List.append_nil]⟩
  | succ n ih =>
    obtain ⟨⟨r, e₁, b₁⟩, hc, hp⟩ := Fault.bind_eq_ok.mp hp
    obtain ⟨rest, hrest, hp⟩ := Fault.bind_eq_ok.mp hp
    obtain rfl := Except.ok.inj hp
    obtain ⟨e', he'⟩ := ih (h.poll hc) hrest
    exact ⟨e', by rwa [List.append_assoc] at he'⟩

def lostUnheard : Script where
  upcoming := [{ reads := [.endOfStream] }]
  turns := [{}, { lookup := some (some [testAddress 1]) }, { result := .events [ready] }, { result := .fails "EINVAL" }, {}]

def unheard : List (Except WaitError Outcome × List Turn) :=
  [(.ok {}, []), (.ok {}, []), (.ok { connected := true }, [.made]), (.error ⟨"EINVAL"⟩, [.lost]), (.ok {}, [])]

theorem lostUnheard_answers :
    ∃ first e, create Script.system { host := "irc.example.net", port := 6667 } 0 { os := lostUnheard } = .ok first ∧
      Answers Script.system first unheard e := by
  obtain ⟨first, hfirst⟩ :
      ∃ e, create Script.system { host := "irc.example.net", port := 6667 } 0 { os := lostUnheard } = .ok e := ⟨_, rfl⟩
  obtain ⟨b, hb⟩ : ∃ b, Buffers.create 4 = .ok b := ⟨_, rfl⟩
  have hpoll : pollTimes Script.system 5 first b = .ok unheard := by
    obtain rfl := Except.ok.inj hfirst
    obtain rfl := Except.ok.inj hb
    decide +kernel
  obtain ⟨e, he⟩ := Answers.start.polled hpoll
  exact ⟨first, e, hfirst, he⟩

theorem only_losses_go_untold_of_lostUnheard :
    ∃ first e b r e' b', create Script.system { host := "irc.example.net", port := 6667 } 0 { os := lostUnheard } = .ok first ∧
      Answers Script.system first unheard e ∧ told unheard = [.made] ∧ untold unheard = [.lost] ∧
      e.connection.stats.losses = 1 ∧ e.connection.state ≠ .connected ∧ first.world.Balanced e.world ∧
      e.cycle Script.system b 0 none = .ok (r, e', b') ∧
      -- the same comes of a list that still holds the event before
      cycle Script.system { e with poller := ⟨[ready]⟩ } b 0 none = .ok (r, e', b') ∧ e'.poller.ready = [] ∧
      ∃ before limit answer after, e.world.WaitsOnce before limit answer after e'.world ∧
        before.filterMap Event.handled? = [] ∧ after.filterMap Event.handled? = answer.ready := by
  obtain ⟨first, e, hfirst, he⟩ := lostUnheard_answers
  obtain ⟨b, -⟩ : ∃ b, Buffers.create 4 = .ok b := ⟨_, rfl⟩
  obtain ⟨r, e', b', h⟩ := cycle_isOk Script.system_bounded e b 0 none
  obtain ⟨hcycle, hrun⟩ := only_losses_go_untold Script.system
  obtain ⟨hpoller, hleft, before, limit, answer, after, hwaits, hbefore, hafter, -⟩ := hcycle e b 0 none r e' b' h
  obtain ⟨hbalanced, -, hlosses, hmade⟩ := hrun _ _ _ first _ e hfirst he
  have hs : e.connection.state ≠ .connected := by
    intro hs
    rw [hs] at hmade
    exact absurd hmade (by decide)
  exact ⟨first, e, b, r, e', b', hfirst, he, rfl, rfl, hlosses, hs, hbalanced, h, hpoller _, hleft,
    before, limit, answer, after, hwaits, hbefore, hafter⟩

theorem lost_unheard :
    ¬∀ first rs e, create Script.system { host := "irc.example.net", port := 6667 } 0 { os := lostUnheard } = .ok first →
      Answers Script.system first rs e → told rs = rs.flatMap (·.2) := by
  intro hall
  obtain ⟨first, e, hfirst, he⟩ := lostUnheard_answers
  exact absurd (hall first _ e hfirst he) (by decide)

end Engine

end IrcLink
