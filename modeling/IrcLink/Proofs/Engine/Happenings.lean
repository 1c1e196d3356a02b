import IrcLink.Proofs.Engine.Run
import IrcLink.Proofs.Engine.Stages
import IrcLink.Proofs.Journal.Errands

/-!
All that can happen to the connection in a cycle, one thing at a time (`Happens`). Every part of a cycle is a path of such
happenings, apart from the wait in its middle, so what each of them keeps is kept by every cycle. Most parts do nothing but
work on the socket (`Works`); lookups are asked for at the end of a cycle, and their results come with a completion.
-/

namespace IrcLink

def Event.isAside : Event → Bool
  | .call (.takeError _) _ => true
  | .call (.peerAddress _) _ => true
  | .call (.reregister _ _ _) (.error _) => true
  | .handled _ => true
  | _ => false

theorem Event.dialled_of_isAside {e : Event} (h : e.isAside = true) : e.dialled? = none := by
  cases e with
  | dialled a => simp [isAside] at h
  | _ => rfl

/-- A question about a candidate, or a socket that cannot be watched anew. -/
def Event.isProbe : Event → Bool
  | .call (.takeError _) _ => true
  | .call (.peerAddress _) _ => true
  | .call (.reregister _ _ _) (.error _) => true
  | _ => false

theorem Event.isAside_of_isProbe {e : Event} (h : e.isProbe = true) : e.isAside = true := by
  unfold isProbe at h
  split at h
  all_goals first | rfl | simp at h

def Event.isTrial : Event → Bool
  | .dialled _ => true
  | e => e.isErrand

theorem Event.isTrial_of_isErrand {e : Event} (h : e.isErrand = true) : e.isTrial = true := by
  cases e <;> first | rfl | exact h

/-- No wait, and nothing that other threads are asked for or have left. -/
def Event.isWork : Event → Bool
  | .dialled _ => true
  | .receiveEnded _ => true
  | .handled _ => true
  | e => e.isErrand

theorem Event.isWork_of_isErrand {e : Event} (h : e.isErrand = true) : e.isWork = true := by
  cases e <;> first | rfl | exact h

theorem Event.isWork_of_isTrial {e : Event} (h : e.isTrial = true) : e.isWork = true := by
  cases e <;> first | rfl | exact h

theorem Event.isWork_of_isAside {e : Event} (h : e.isAside = true) : e.isWork = true := by
  cases e with
  | call c a => cases c <;> first | rfl | simp [isAside] at h
  | handled e => rfl
  | _ => simp [isAside] at h

def Event.handled? : Event → Option Readiness
  | .handled e => some e
  | _ => none

theorem Event.handled_of_foreign {e : Event} (h : e.isForeign = true) : e.handled? = none := by
  cases e with
  | handled e => simp [isForeign] at h
  | _ => rfl

theorem Event.handled_of_isTrial {e : Event} (h : e.isTrial = true) : e.handled? = none := by
  cases e with
  | handled e => simp [isTrial, isErrand] at h
  | _ => rfl

theorem Event.handled_of_isErrand {e : Event} (h : e.isErrand = true) : e.handled? = none :=
  handled_of_isTrial (isTrial_of_isErrand h)

theorem Event.handled_of_isProbe {e : Event} (h : e.isProbe = true) : e.handled? = none := by
  cases e with
  | handled e => simp [isProbe] at h
  | _ => rfl

abbrev World.HandsNone {ω : Type} : World ω → World ω → Prop := World.Only (·.handled? = none)

def Connection.candidates (c : Connection) : List SocketAddress :=
  match c.phase with
  | .resolved first rest => first :: rest
  | .connecting _ _ rest _ => rest
  | _ => []

namespace Transfer

variable {ω : Type} {S : System ω} {s : Socket} {ring : Ring} {w : World ω} {t : Transferred ω}

theorem receiveOnce_calls {r : Try ω} (h : receiveOnce S s ring w = .ok r) :
    w.Calls S (·.stream? = some s) r.world := by
  have hc : w.Calls S (·.stream? = some s) (w.call S (.read s ring.writeSpanLength)).2 := .of_call (by simp) rfl
  obtain ⟨-, rfl⟩ | ⟨-, a, w', hcall, hr⟩ := receiveOnce_ok h
  · exact .refl
  · rw [hcall] at hc
    obtain ⟨-, rfl⟩ | ⟨p, rfl, hr⟩ := hr
    · exact hc
    · rwa [← hr.world_eq] at hc

theorem transmitOnce_writes {P : Event → Prop} (hP : ∀ data a, P (.call (.write s data) a)) {r : Try ω}
    (h : transmitOnce S s ring w = .ok r) : w.Calls S P r.world := by
  have hc : w.Calls S P (w.call S (.write s ring.readSpan)).2 := .of_call (by simp) (hP _ _)
  obtain ⟨-, rfl⟩ | ⟨-, a, w', hcall, hr⟩ := transmitOnce_ok h
  · exact .refl
  · rw [hcall] at hc
    obtain ⟨-, rfl⟩ | ⟨p, rfl, hr⟩ := hr
    · exact hc
    · rwa [← hr.world_eq] at hc

theorem Retried.calls {once : World ω → Except Fault (Try ω)} {p : Pass ω} {P : Event → Prop}
    (hone : ∀ w r, once w = .ok r → w.Calls S P r.world) (h : Retried once p w) : w.Calls S P p.world := by
  induction h with
  | passed h => exact hone _ _ h
  | interrupted h _ ih => exact (hone _ _ h).trans ih

theorem Passes.calls {pass : Ring → World ω → Except Fault (Pass ω)} {P : Event → Prop}
    (hpass : ∀ ring w p, pass ring w = .ok p → w.Calls S P p.world) (h : Passes pass ring w t) : w.Calls S P t.world := by
  induction h with
  | stopped h => exact hpass _ _ _ h
  | moved h _ ih => exact (hpass _ _ _ h).trans ih

theorem receive_calls (h : receive S s ring w = .ok t) : w.Calls S (·.stream? = some s) t.world :=
  (receive_passes h).calls fun _ _ _ hp => (receivePass_retried S s hp).calls fun _ _ => receiveOnce_calls

theorem transmit_writes {P : Event → Prop} (hP : ∀ data a, P (.call (.write s data) a)) (h : transmit S s ring w = .ok t) :
    w.Calls S P t.world :=
  (transmit_passes h).calls fun _ _ _ hp => (transmitPass_retried S s hp).calls fun _ _ => transmitOnce_writes hP

theorem transmit_calls (h : transmit S s ring w = .ok t) : w.Calls S (·.stream? = some s) t.world :=
  transmit_writes (fun _ _ => rfl) h

end Transfer

namespace Cycle

open Relation

variable {ω : Type} {S : System ω} {now : Nat} {c c' : Cycle ω} {s : Socket} {peer : SocketAddress}

inductive Works (S : System ω) (now : Nat) (c : Cycle ω) : Cycle ω → Prop
  | aside {world : World ω} (h : c.world.Calls S (·.isAside = true) world) : Works S now c { c with world }
  | receives {s : Socket} {peer : SocketAddress} {alive : Bool} {c' : Cycle ω}
      (hphase : c.connection.phase = .connected s peer) (h : c.receive S s = .ok (alive, c')) : Works S now c c'
  | transmits {s : Socket} {peer : SocketAddress} {alive : Bool} {c' : Cycle ω}
      (hphase : c.connection.phase = .connected s peer) (h : c.transmit S s = .ok (alive, c')) : Works S now c c'
  | rearms {s : Socket} {peer : SocketAddress} (hphase : c.connection.phase = .connected s peer)
      (hfree : c.buffers.read.free ≠ 0) (hfull : c.connection.flow.readFull = true) :
      Works S now c ((c.setFlow { c.connection.flow with readFull := false }).countStats
        fun n => { n with rearms := n.rearms + 1 })
  | mayWrite {s : Socket} {peer : SocketAddress} (hphase : c.connection.phase = .connected s peer) :
      Works S now c (c.setFlow { c.connection.flow with writeFull := false })
  | watches {s : Socket} {peer : SocketAddress} {world : World ω} (hphase : c.connection.phase = .connected s peer)
      (h : c.world.call S (.reregister s socketToken (if c.connection.flow.writeFull then .readWrite else .read)) = (.ok (), world)) :
      Works S now c { c with connection := { c.connection with writeInterest := c.connection.flow.writeFull }, world }
  | loses {s : Socket} {peer : SocketAddress} (hphase : c.connection.phase = .connected s peer) :
      Works S now c (c.lose S now s)
  | connects {s : Socket} {a : SocketAddress} {rest : List SocketAddress} {deadline : Nat} {world : World ω}
      (hphase : c.connection.phase = .connecting s a rest deadline)
      (h : c.world.call S (.reregister s socketToken .read) = (.ok (), world)) : Works S now c ({ c with world }.connect s a)
  | dials (hstate : c.connection.state = .resolved ∨ c.connection.state = .connecting) :
      Works S now c (c.nextAddress S now)

inductive Happens (S : System ω) (now : Nat) (c : Cycle ω) : Cycle ω → Prop
  | works {c' : Cycle ω} (h : Works S now c c') : Happens S now c c'
  | looks : Happens S now c { c with
      world := (c.world.takeStop S).2
      outcome := { c.outcome with stopRequested := c.outcome.stopRequested || (c.world.takeStop S).1 } }
  | collects {r : Resolution} {world : World ω} (h : c.world.collect S = (some r, world)) :
      Happens S now c ({ c with world }.onLookup now r)
  | asks {retryAt : Nat} (hphase : c.connection.phase = .disconnected retryAt) (hdue : retryAt ≤ now) :
      Happens S now c (c.afterEvents S now (World.startLookup S))

abbrev Work (S : System ω) (now : Nat) : Cycle ω → Cycle ω → Prop := ReflTransGen (Works S now)

abbrev Task (S : System ω) (now : Nat) : Cycle ω → Cycle ω → Prop :=
  ReflTransGen fun c c' => Works S now c c' ∧ c.world.HandsNone c'.world

abbrev Path (S : System ω) (now : Nat) : Cycle ω → Cycle ω → Prop := ReflTransGen (Happens S now)

theorem Work.path (h : Work S now c c') : Path S now c c' := ReflTransGen.mono (fun _ _ => .works) _ _ h

theorem Task.work (h : Task S now c c') : Work S now c c' := ReflTransGen.mono (fun _ _ => And.left) _ _ h

theorem Task.handsNone (h : Task S now c c') : c.world.HandsNone c'.world := by
  induction h with
  | refl => exact .refl _
  | tail _ h ih => exact ih.trans h.2

theorem Path.keeps {I : Cycle ω → Prop} (hI : ∀ {c c'}, Happens S now c c' → I c → I c') (h : Path S now c c')
    (hc : I c) : I c' := by
  induction h with
  | refl => exact hc
  | tail _ h ih => exact hI h ih

/-- What trying these addresses comes to: the first ones were dialled, in their order, and the last of these is connecting or
none is left. -/
structure Tries (S : System ω) (now : Nat) (addresses : List SocketAddress) (c c' : Cycle ω) : Prop where
  settings_eq : c'.connection.settings = c.connection.settings
  flow_eq : c'.connection.flow = c.connection.flow
  writeInterest_eq : c'.connection.writeInterest = c.connection.writeInterest
  calls : c.world.Calls S (·.isTrial = true) c'.world
  dialled : ∃ tried, tried ++ c'.connection.candidates = addresses ∧ c.world.Shows Event.dialled? tried c'.world ∧
    c'.connection.stats.dials = c.connection.stats.dials + tried.length ∧
    ∀ a, c'.connection.connecting? = some a → tried.getLast? = some a
  ended : c'.connection.phase = .disconnected (now + c.connection.settings.retryDelay) ∨
    ∃ s a rest w, c'.connection.phase = .connecting s a rest (now + c.connection.settings.connectTimeout) ∧
      c.world.Calls S (·.isTrial = true) w ∧ (w.record S (.dialled a)).Calls S (·.isErrand = true) c'.world

theorem Tries.candidates_lt {addresses : List SocketAddress} (h : Tries S now addresses c c')
    (hs : c'.connection.state = .connecting) : c'.connection.candidates.length < addresses.length := by
  obtain ⟨tried, rfl, -, -, hlast⟩ := h.dialled
  obtain ⟨s, a, rest, deadline, hphase⟩ := Connection.state_eq_connecting.mp hs
  have ha := hlast a (by rw [Connection.connecting?, hphase])
  have htried : 0 < tried.length := List.length_pos_of_mem (List.mem_of_getLast? ha)
  rw [List.length_append]
  omega

theorem Tries.after {world : World ω} (h : c.world.Calls S (·.isTrial = true) world) {addresses : List SocketAddress}
    (hworld : c.world.Shows Event.dialled? [] world) (ht : Tries S now addresses { c with world } c') :
    Tries S now addresses c c' := by
  obtain ⟨hs, hf, hi, hv, ⟨tried, happend, hshows, hdials, hlast⟩, hended⟩ := ht
  refine ⟨hs, hf, hi, h.trans hv, ⟨tried, happend, hworld.trans hshows, hdials, hlast⟩, ?_⟩
  obtain hpause | ⟨s, b, left, w, hphase, hbefore, hafter⟩ := hended
  · exact .inl hpause
  · exact .inr ⟨s, b, left, w, hphase, h.trans hbefore, hafter⟩

theorem dialFirst_tries (S : System ω) (now : Nat) (c : Cycle ω) (addresses : List SocketAddress) :
    Tries S now addresses c (c.dialFirst S now addresses) := by
  induction addresses generalizing c with
  | nil => exact ⟨rfl, rfl, rfl, .refl, ⟨[], rfl, .refl _, rfl, nofun⟩, .inl rfl⟩
  | cons a rest ih =>
    have hv := World.dialWatched_calls S c.world c.connection.settings.noDelay a
    have hr : c.world.Calls S (·.isTrial = true) (c.world.record S (.dialled a)) := World.Calls.refl.record rfl rfl
    have hv' : c.world.Calls S (·.isTrial = true) (c.world.dialWatched S c.connection.settings.noDelay a).2 :=
      hr.trans (hv.mono fun _ => Event.isTrial_of_isErrand)
    have hd : c.world.Shows Event.dialled? [a] (c.world.dialWatched S c.connection.settings.noDelay a).2 :=
      (World.Shows.record S c.world (.dialled a)).trans
        (.of_only (fun _ => Event.dialled_of_foreign) (hv.only.mono fun _ => Event.dialled_of_isErrand))
    unfold dialFirst
    dsimp only
    split
    · rename_i s world h
      have hworld : (c.world.dialWatched S c.connection.settings.noDelay a).2 = world := congrArg Prod.snd h
      rw [hworld] at hv hv' hd
      exact ⟨rfl, rfl, rfl, hv', ⟨[a], rfl, hd, rfl, fun _ => id⟩, .inr ⟨s, a, rest, c.world, rfl, .refl, hv⟩⟩
    · rename_i world h
      have hworld : (c.world.dialWatched S c.connection.settings.noDelay a).2 = world := congrArg Prod.snd h
      rw [hworld] at hv' hd
      obtain ⟨hs, hf, hi, hw, ⟨tried, happend, hshows, hdials, hlast⟩, hended⟩ :=
        ih { c.countStats fun t => { t with dials := t.dials + 1 } with world }
      refine ⟨hs, hf, hi, hv'.trans hw, ⟨a :: tried, by rw [List.cons_append, happend], hd.trans hshows, ?_, ?_⟩, ?_⟩
      · rw [hdials, List.length_cons]
        exact Nat.add_right_comm c.connection.stats.dials 1 tried.length
      · intro b hb
        rw [List.getLast?_cons, hlast b hb, Option.getD_some]
      · obtain hpause | ⟨s, b, left, w, hphase, hbefore, hafter⟩ := hended
        · exact .inl hpause
        · exact .inr ⟨s, b, left, w, hphase, hv'.trans hbefore, hafter⟩

theorem nextAddress_tries (S : System ω) (now : Nat)
    (hstate : c.connection.state = .resolved ∨ c.connection.state = .connecting) :
    Tries S now c.connection.candidates c (c.nextAddress S now) := by
  unfold nextAddress
  split
  · rename_i first rest hphase
    rw [Connection.candidates, hphase]
    exact dialFirst_tries S now c _
  · rename_i s a rest deadline hphase
    rw [Connection.candidates, hphase]
    have ha : c.world.Calls S (·.isErrand = true) (c.world.abandon S s) :=
      (World.abandon_calls S c.world s).mono fun _ => Event.isErrand_of_isUnwatched
    have hd : c.world.Shows Event.dialled? [] (c.world.abandon S s) :=
      .of_only (fun _ => Event.dialled_of_foreign) (ha.only.mono fun _ => Event.dialled_of_isErrand)
    exact .after (ha.mono fun _ => Event.isTrial_of_isErrand) hd
      (dialFirst_tries S now { c with world := c.world.abandon S s } rest)
  · rename_i hresolved hconnecting
    cases hphase : c.connection.phase with
    | resolved first rest => exact absurd hphase (hresolved first rest)
    | connecting s a rest deadline => exact absurd hphase (hconnecting s a rest deadline)
    | disconnected retryAt => simp [Connection.state, hphase] at hstate
    | resolving => simp [Connection.state, hphase] at hstate
    | connected s peer => simp [Connection.state, hphase] at hstate

theorem task_probe {world : World ω} (h : c.world.Calls S (·.isProbe = true) world) : Task S now c { c with world } :=
  .single ⟨.aside (h.mono fun _ => Event.isAside_of_isProbe), h.only.mono fun _ => Event.handled_of_isProbe⟩

theorem task_receive (hphase : c.connection.phase = .connected s peer) {alive : Bool}
    (h : c.receive S s = .ok (alive, c')) : Task S now c c' := by
  refine .single ⟨.receives hphase h, ?_⟩
  obtain ⟨t, ht, -, rfl⟩ := receive_ok h
  have hv : c.world.Calls S (·.handled? = none) t.world :=
    (Transfer.receive_calls ht).mono fun _ hs => Event.handled_of_isErrand (Event.isErrand_of_stream hs)
  exact (hv.record rfl rfl).only

theorem task_transmit (hphase : c.connection.phase = .connected s peer) {alive : Bool}
    (h : c.transmit S s = .ok (alive, c')) : Task S now c c' := by
  refine .single ⟨.transmits hphase h, ?_⟩
  obtain ⟨t, ht, -, rfl⟩ := transmit_ok h
  exact (Transfer.transmit_calls ht).only.mono fun _ hs => Event.handled_of_isErrand (Event.isErrand_of_stream hs)

theorem task_mayWrite (hphase : c.connection.phase = .connected s peer) :
    Task S now c (c.setFlow { c.connection.flow with writeFull := false }) := .single ⟨.mayWrite hphase, .refl _⟩

theorem task_watch {world : World ω} (hphase : c.connection.phase = .connected s peer)
    (h : c.world.call S (.reregister s socketToken (if c.connection.flow.writeFull then .readWrite else .read)) = (.ok (), world)) :
    Task S now c { c with connection := { c.connection with writeInterest := c.connection.flow.writeFull }, world } := by
  have hd := World.call_does S c.world
    (c := .reregister s socketToken (if c.connection.flow.writeFull then .readWrite else .read)) nofun
  rw [h] at hd
  exact .single ⟨.watches hphase h, .of_does hd rfl⟩

theorem task_connect {a : SocketAddress} {rest : List SocketAddress} {deadline : Nat} {world : World ω}
    (hphase : c.connection.phase = .connecting s a rest deadline)
    (h : c.world.call S (.reregister s socketToken .read) = (.ok (), world)) : Task S now c ({ c with world }.connect s a) := by
  have hd := World.call_does S c.world (c := .reregister s socketToken .read) nofun
  rw [h] at hd
  exact .single ⟨.connects hphase h, .of_does hd rfl⟩

theorem task_lose (hphase : c.connection.phase = .connected s peer) : Task S now c (c.lose S now s) := by
  refine .single ⟨.loses hphase, (World.abandon_calls S c.world s).only.mono fun _ h => ?_⟩
  exact Event.handled_of_isErrand (Event.isErrand_of_isUnwatched h)

theorem task_nextAddress (hstate : c.connection.state = .resolved ∨ c.connection.state = .connecting) :
    Task S now c (c.nextAddress S now) :=
  .single ⟨.dials hstate, (nextAddress_tries S now hstate).calls.only.mono fun _ => Event.handled_of_isTrial⟩

theorem receiveIfRoom_task (hphase : c.connection.phase = .connected s peer) {alive anew : Bool}
    (h : c.receiveIfRoom S s = .ok (alive, anew, c')) : Task S now c c' := by
  unfold receiveIfRoom at h
  split at h
  · obtain ⟨-, -, rfl⟩ := by simpa using h
    exact .refl
  · rename_i hfree
    split at h
    · rename_i hfull
      obtain ⟨-, -, rfl⟩ := by simpa using h
      exact .single ⟨.rearms hphase hfree hfull, .refl _⟩
    · obtain ⟨⟨_, c₁⟩, hr, h⟩ := Fault.map_eq_ok.mp h
      obtain ⟨-, -, rfl⟩ := by simpa using h
      exact task_receive hphase hr

theorem transmitIfQueued_task (hphase : c.connection.phase = .connected s peer) {alive : Bool}
    (h : c.transmitIfQueued S s = .ok (alive, c')) : Task S now c c' := by
  unfold transmitIfQueued at h
  split at h
  · obtain ⟨-, rfl⟩ := by simpa using h
    exact task_mayWrite hphase
  · split at h
    · obtain ⟨-, rfl⟩ := by simpa using h
      exact .refl
    · exact task_transmit hphase h

theorem watch_task (hphase : c.connection.phase = .connected s peer) (anew : Bool) :
    Task S now c (c.watch S s anew).2 := by
  unfold watch
  dsimp only
  split
  · split
    · rename_i h
      exact task_watch hphase h
    · rename_i code world h
      have hv : c.world.Calls S (·.isProbe = true) (c.world.call S
          (.reregister s socketToken (if c.connection.flow.writeFull then .readWrite else .read))).2 :=
        .of_call nofun (by rw [h]; rfl)
      rw [h] at hv
      exact task_probe hv
  · exact .refl

theorem sendAndWatch_task (hphase : c.connection.phase = .connected s peer) {anew : Bool}
    (h : c.sendAndWatch S now s anew = .ok c') : Task S now c c' := by
  obtain ⟨alive, c₁, ht, h⟩ := sendAndWatch_ok h
  have hp₁ : c₁.connection.phase = .connected s peer := (transmitIfQueued_stays ht).phase_eq.trans hphase
  have h₁ : Task S now c c₁ := transmitIfQueued_task hphase ht
  obtain ⟨-, rfl⟩ | ⟨-, rfl⟩ := h
  · exact h₁.trans (task_lose hp₁)
  · have h₂ := h₁.trans (watch_task hp₁ anew)
    split
    · exact h₂
    · exact h₂.trans (task_lose ((watch_stays S c₁ s anew).phase_eq.trans hp₁))

theorem beforeWait_task (h : c.beforeWait S now = .ok c') : Task S now c c' := by
  by_cases hs : c.connection.state = .connected
  · obtain ⟨s, peer, hphase⟩ := Connection.state_eq_connected.mp hs
    obtain ⟨alive, anew, c₁, hr, h⟩ := beforeWait_connected hphase h
    have hp₁ : c₁.connection.phase = .connected s peer := (receiveIfRoom_stays hr).phase_eq.trans hphase
    have h₁ : Task S now c c₁ := receiveIfRoom_task hphase hr
    obtain ⟨-, rfl⟩ | ⟨-, h⟩ := h
    · exact h₁.trans (task_lose hp₁)
    · exact h₁.trans (sendAndWatch_task hp₁ h)
  · obtain rfl := beforeWait_unlinked hs h
    exact .refl

theorem beforeWait_work (h : c.beforeWait S now = .ok c') : Work S now c c' := (beforeWait_task h).work

theorem hasConnected_calls (w : World ω) (s : Socket) : w.Calls S (·.isProbe = true) (hasConnected S w s).2 := by
  have ht : w.Calls S (·.isProbe = true) (w.call S (.takeError s)).2 := .of_call nofun rfl
  unfold hasConnected
  split
  · rename_i h
    rw [h] at ht
    exact ht
  · rename_i h
    rw [h] at ht
    exact ht
  · rename_i h
    rw [h] at ht
    have hp := ht.call (c := .peerAddress s) nofun rfl
    split
    all_goals
      rename_i h
      rw [h] at hp
      exact hp

theorem onConnecting_ways (S : System ω) (now : Nat) (c : Cycle ω) (e : Readiness) (s : Socket) (a : SocketAddress) :
    (∃ world, c.world.Calls S (·.isProbe = true) world ∧ (c.onConnecting S now e s a = { c with world } ∨
      c.onConnecting S now e s a = ({ c with world } : Cycle ω).nextAddress S now)) ∨
    ∃ asked world, hasConnected S c.world s = (some true, asked) ∧ asked.call S (.reregister s socketToken .read) = (.ok (), world) ∧
      c.onConnecting S now e s a = ({ c with world } : Cycle ω).connect s a := by
  have hc : c.world.Calls S (·.isProbe = true) (hasConnected S c.world s).2 := hasConnected_calls c.world s
  have ht : c.world.Calls S (·.isProbe = true) (c.world.call S (.takeError s)).2 := .of_call nofun rfl
  unfold onConnecting
  split
  · exact .inl ⟨_, ht, .inr rfl⟩
  · split
    · split
      all_goals
        rename_i world hh
        rw [hh] at hc
      · exact .inl ⟨world, hc, .inl rfl⟩
      · exact .inl ⟨world, hc, .inr rfl⟩
      · split
        · rename_i hr
          exact .inr ⟨world, _, hh, hr, rfl⟩
        · rename_i code world' hr
          have hr' := hc.call (c := .reregister s socketToken .read) nofun (by rw [hr]; rfl)
          rw [hr] at hr'
          exact .inl ⟨world', hr', .inr rfl⟩
    · exact .inl ⟨c.world, .refl, .inl rfl⟩

theorem onConnecting_task {a : SocketAddress} {rest : List SocketAddress} {deadline : Nat}
    (hphase : c.connection.phase = .connecting s a rest deadline) (e : Readiness) :
    Task S now c (c.onConnecting S now e s a) := by
  have hstate : c.connection.state = .connecting := Connection.state_eq_connecting.mpr ⟨s, a, rest, deadline, hphase⟩
  obtain ⟨world, hw, hc' | hc'⟩ | ⟨asked, world, hh, hr, hc'⟩ := onConnecting_ways S now c e s a
  all_goals rw [hc']
  · exact task_probe hw
  · exact (task_probe hw).trans (task_nextAddress (.inr hstate))
  · have hw := hasConnected_calls (S := S) c.world s
    rw [hh] at hw
    exact (task_probe hw).trans (task_connect hphase hr)

theorem receiveReady_task (hphase : c.connection.phase = .connected s peer) {e : Readiness} {alive : Bool}
    (h : c.receiveReady S e s = .ok (alive, c')) : Task S now c c' := by
  unfold receiveReady at h
  split at h
  · exact task_receive hphase h
  · obtain ⟨-, rfl⟩ := by simpa using h
    exact .refl

theorem transmitReady_task (hphase : c.connection.phase = .connected s peer) {alive : Bool}
    (h : c.transmitReady S s = .ok (alive, c')) : Task S now c c' := by
  have hf : Task S now c (c.setFlow { c.connection.flow with writeFull := false }) := task_mayWrite hphase
  unfold transmitReady at h
  dsimp only at h
  split at h
  · obtain ⟨-, rfl⟩ := by simpa using h
    exact hf
  · exact hf.trans (task_transmit hphase h)

theorem onConnected_task (hphase : c.connection.phase = .connected s peer) {e : Readiness}
    (h : c.onConnected S now e s = .ok c') : Task S now c c' := by
  obtain ⟨alive, c₁, hr, h⟩ := onConnected_ok h
  have hp₁ : c₁.connection.phase = .connected s peer := (receiveReady_stays hr).phase_eq.trans hphase
  have h₁ : Task S now c c₁ := receiveReady_task hphase hr
  obtain ⟨-, rfl⟩ | ⟨-, h⟩ := h
  · exact h₁.trans (task_lose hp₁)
  · obtain ⟨-, rfl⟩ | ⟨-, -, rfl⟩ | ⟨-, -, alive, c₂, ht, rfl⟩ := hangUpOrSend_ok h
    · have ht : Task S now c₁ { c₁ with world := (c₁.world.call S (.takeError s)).2 } :=
        task_probe (.of_call nofun rfl)
      exact (h₁.trans ht).trans (task_lose hp₁)
    · exact h₁
    · have h₂ := h₁.trans (transmitReady_task hp₁ ht)
      split
      · exact h₂
      · exact h₂.trans (task_lose ((transmitReady_stays ht).phase_eq.trans hp₁))

theorem onEvent_task {e : Readiness} (h : c.onEvent S now e = .ok c') : Task S now c c' := by
  unfold onEvent at h
  split at h
  · rename_i hphase
    obtain rfl := Except.ok.inj h
    exact onConnecting_task hphase e
  · rename_i hphase
    exact onConnected_task hphase h
  · obtain rfl := Except.ok.inj h
    exact .refl

inductive Due (S : System ω) (now : Nat) (start : Start ω) (c : Cycle ω) : Prop
  | nothing (h : c.afterEvents S now start = c) (hs : c.connection.state ≠ .resolved)
      (hd : ∀ d, c.connection.deadline? = some d → now < d)
  | lookup {retryAt : Nat} (hphase : c.connection.phase = .disconnected retryAt) (hdue : retryAt ≤ now)
  | address (h : c.afterEvents S now start = c.nextAddress S now)
      (hs : c.connection.state = .resolved ∨
        c.connection.state = .connecting ∧ ∃ d, c.connection.deadline? = some d ∧ d ≤ now)

theorem due_cases (S : System ω) (now : Nat) (start : Start ω) (c : Cycle ω) : Due S now start c := by
  cases hphase : c.connection.phase with
  | disconnected retryAt =>
    by_cases hdue : retryAt ≤ now
    · exact .lookup hphase hdue
    · refine .nothing ?_ ?_ ?_
      · simp only [afterEvents, hphase, if_neg hdue]
      · simp [Connection.state, hphase]
      · simpa [Connection.deadline?, hphase] using hdue
  | resolving =>
    refine .nothing ?_ ?_ ?_
    · simp only [afterEvents, hphase]
    · simp [Connection.state, hphase]
    · simp [Connection.deadline?, hphase]
  | resolved first rest =>
    refine .address ?_ (.inl (by rw [Connection.state, hphase]))
    simp only [afterEvents, hphase]
  | connecting s a rest deadline =>
    by_cases hdue : deadline ≤ now
    · refine .address ?_ (.inr ⟨by rw [Connection.state, hphase], deadline, by rw [Connection.deadline?, hphase], hdue⟩)
      simp only [afterEvents, hphase, if_pos hdue]
    · refine .nothing ?_ ?_ ?_
      · simp only [afterEvents, hphase, if_neg hdue]
      · simp [Connection.state, hphase]
      · simpa [Connection.deadline?, hphase] using hdue
  | connected s peer =>
    refine .nothing ?_ ?_ ?_
    · simp only [afterEvents, hphase]
    · simp [Connection.state, hphase]
    · simp [Connection.deadline?, hphase]

theorem afterEvents_cases (S : System ω) (now : Nat) (c : Cycle ω) :
    Task S now c (c.afterEvents S now (World.startLookup S)) ∨
      ∃ retryAt, c.connection.phase = .disconnected retryAt ∧ retryAt ≤ now := by
  cases due_cases S now (World.startLookup S) c with
  | nothing h =>
    rw [h]
    exact .inl .refl
  | lookup hphase hdue => exact .inr ⟨_, hphase, hdue⟩
  | address h hs =>
    rw [h]
    exact .inl (task_nextAddress (hs.imp_right And.left))

theorem afterEvents_path (S : System ω) (now : Nat) (c : Cycle ω) :
    Path S now c (c.afterEvents S now (World.startLookup S)) := by
  obtain h | ⟨retryAt, hphase, hdue⟩ := afterEvents_cases S now c
  · exact h.work.path
  · exact .single (.asks hphase hdue)

theorem Works.calls (h : Works S now c c') : c.world.Calls S (·.isWork = true) c'.world := by
  cases h with
  | aside h => exact h.mono fun _ => Event.isWork_of_isAside
  | receives hphase h =>
    obtain ⟨t, ht, -, rfl⟩ := receive_ok h
    have hv : c.world.Calls S (·.isWork = true) t.world :=
      (Transfer.receive_calls ht).mono fun _ hs => Event.isWork_of_isErrand (Event.isErrand_of_stream hs)
    exact hv.record rfl rfl
  | transmits hphase h =>
    obtain ⟨t, ht, -, rfl⟩ := transmit_ok h
    exact (Transfer.transmit_calls ht).mono fun _ hs => Event.isWork_of_isErrand (Event.isErrand_of_stream hs)
  | rearms => exact .refl
  | mayWrite => exact .refl
  | @watches s _ world hphase h =>
    have hv : c.world.Calls S (·.isWork = true) (c.world.call S
        (.reregister s socketToken (if c.connection.flow.writeFull then .readWrite else .read))).2 := .of_call nofun rfl
    rwa [h] at hv
  | @loses s =>
    exact (World.abandon_calls S c.world s).mono fun _ he => Event.isWork_of_isErrand (Event.isErrand_of_isUnwatched he)
  | @connects s _ _ _ world hphase h =>
    have hv : c.world.Calls S (·.isWork = true) (c.world.call S (.reregister s socketToken .read)).2 := .of_call nofun rfl
    rwa [h] at hv
  | dials hstate => exact (nextAddress_tries S now hstate).calls.mono fun _ => Event.isWork_of_isTrial

theorem Work.calls (h : Work S now c c') : c.world.Calls S (·.isWork = true) c'.world := by
  induction h with
  | refl => exact .refl
  | tail _ h ih => exact ih.trans h.calls

theorem afterEvents_due {retryAt : Nat} (hphase : c.connection.phase = .disconnected retryAt) (hdue : retryAt ≤ now) :
    ∃ l : Lookup,
      (∃ world, World.startLookup S l c.world = (.ok (), world) ∧ c.afterEvents S now (World.startLookup S) =
        ({ c with world := world.record S (.asked l none) } : Cycle ω).setPhase .resolving) ∨
      ∃ e world, World.startLookup S l c.world = (.error e, world) ∧ c.afterEvents S now (World.startLookup S) =
        ({ c with world := world.record S (.asked l (some e)) } : Cycle ω).failLookup now := by
  refine ⟨⟨c.connection.settings.host, c.connection.settings.port⟩, ?_⟩
  simp only [afterEvents, hphase, if_pos hdue]
  split
  · rename_i world h
    exact .inl ⟨world, h, rfl⟩
  · rename_i e world h
    exact .inr ⟨e, world, h, rfl⟩

structure Asks (S : System ω) (now : Nat) (c c' : Cycle ω) : Prop where
  settings_eq : c'.connection.settings = c.connection.settings
  flow_eq : c'.connection.flow = c.connection.flow
  writeInterest_eq : c'.connection.writeInterest = c.connection.writeInterest
  asked : ∃ l refusal w, c.world.Via S (·.isErrand = true) w ∧ c'.world = w.record S (.asked l refusal)
  ended : c'.connection.phase = .resolving ∨
    c'.connection.phase = .disconnected (now + c.connection.settings.retryDelay)

theorem Asks.only {P : Event → Prop} (h : Asks S now c c') (herrand : ∀ e, e.isErrand = true → P e)
    (hasked : ∀ l refusal, P (.asked l refusal)) : World.Only P c.world c'.world := by
  obtain ⟨l, refusal, w, hv, hw⟩ := h.asked
  rw [hw]
  exact (hv.only.mono herrand).trans (.of_does (World.record_does S w rfl) (hasked l refusal))

theorem afterEvents_asks {retryAt : Nat} (hphase : c.connection.phase = .disconnected retryAt) (hdue : retryAt ≤ now) :
    Asks S now c (c.afterEvents S now (World.startLookup S)) := by
  obtain ⟨l, hl⟩ := afterEvents_due (S := S) hphase hdue
  have hv : c.world.Via S (·.isErrand = true) (World.startLookup S l c.world).2 :=
    World.startLookup_via S c.world l fun _ => rfl
  obtain ⟨world, h, hc⟩ | ⟨e, world, h, hc⟩ := hl
  all_goals
    rw [h] at hv
    rw [hc]
  · exact ⟨rfl, rfl, rfl, ⟨l, _, world, hv, rfl⟩, .inl rfl⟩
  · exact ⟨rfl, rfl, rfl, ⟨l, _, world, hv, rfl⟩, .inr rfl⟩

section

variable {P : Event → Prop} (hwork : ∀ e, e.isWork = true → P e) (hlooked : ∀ stop, P (.looked stop))
  (hcollected : ∀ r, P (.collected r)) (hasked : ∀ l refusal, P (.asked l refusal))

include hwork hlooked hcollected hasked

theorem Happens.only (h : Happens S now c c') : World.Only P c.world c'.world := by
  cases h with
  | works h => exact h.calls.only.mono hwork
  | looks => exact .of_does (World.takeStop_does S c.world) (hlooked _)
  | collects h =>
    have hv : c.world.Via S P (c.world.collect S).2 := World.collect_via S c.world hcollected
    rw [h] at hv
    rw [onLookup_world]
    exact hv.only
  | asks hphase hdue =>
    exact (afterEvents_asks hphase hdue).only (fun e he => hwork e (Event.isWork_of_isErrand he)) hasked

theorem Path.only (h : Path S now c c') : World.Only P c.world c'.world := by
  induction h with
  | refl => exact .refl _
  | tail _ h ih => exact ih.trans (h.only hwork hlooked hcollected hasked)

end

end Cycle

namespace Engine

open Relation IrcLink.Cycle

variable {ω : Type} {S : System ω} {now : Nat} {c c' : Cycle ω}

theorem onLookup_withWorld (now : Nat) (c : Cycle ω) (world : World ω) (r : Resolution) :
    ({ c with world } : Cycle ω).onLookup now r = { c.onLookup now r with world } := by
  cases hphase : c.connection.phase with
  | resolving =>
    cases r with
    | error e =>
      simp only [onLookup, hphase]
      rfl
    | ok addresses =>
      cases addresses
      all_goals
        simp only [onLookup, hphase]
        rfl
  | _ => simp only [onLookup, hphase]

theorem onLookups_withWorld (now : Nat) (c : Cycle ω) (world : World ω) (rs : List Resolution) :
    rs.foldl (onLookup now) { c with world } = { rs.foldl (onLookup now) c with world } := by
  induction rs generalizing c with
  | nil => rfl
  | cons r rs ih => rw [List.foldl_cons, onLookup_withWorld, ih, List.foldl_cons]

theorem onLookups_of_phase (h : c.connection.phase ≠ .resolving) (rs : List Resolution) :
    rs.foldl (onLookup now) c = c := by
  induction rs with
  | nil => rfl
  | cons r rs ih => rw [List.foldl_cons, onLookup_of_phase h, ih]

theorem collectAll_eq (S : System ω) (now : Nat) (c : Cycle ω) :
    ∃ (rs : List Resolution) (world : World ω), c.world.Does (rs.map .collected) world ∧
      world.shared.outstanding + rs.length = c.world.shared.outstanding ∧
      collectAll S now c = { rs.foldl (onLookup now) c with world } := by
  induction c using collectAll.induct S now with
  | case1 c world h =>
    obtain rfl := World.collect_none S h
    rw [collectAll, h]
    exact ⟨[], _, World.letOthersAct_does S c.world none, World.letOthersAct_outstanding S c.world none, rfl⟩
  | case2 c r world h ih =>
    have hd := World.collect_does S c.world
    have ho := World.collect_outstanding S h
    obtain ⟨rs, world', hd', ho', heq⟩ := ih
    rw [onLookup_world] at hd' ho'
    rw [h] at hd
    have hcount : world'.shared.outstanding + (r :: rs).length = c.world.shared.outstanding := by
      rw [List.length_cons, ← Nat.add_assoc, ho', ho]
    refine ⟨r :: rs, world', hd.trans hd', hcount, ?_⟩
    rw [collectAll, h]
    dsimp only
    rw [heq, onLookup_withWorld, onLookups_withWorld, List.foldl_cons]

theorem onCompletion_eq (S : System ω) (now : Nat) (c : Cycle ω) :
    ∃ (rs : List Resolution) (world : World ω) (stopRequested : Bool),
      c.world.Does (.looked (c.world.takeStop S).1 :: rs.map .collected) world ∧
      world.shared.outstanding + rs.length = c.world.shared.outstanding ∧
      onCompletion S now c =
        { rs.foldl (onLookup now) { c with outcome := { c.outcome with stopRequested } } with world } := by
  let told : World ω := (c.world.takeStop S).2
  let stop : Bool := c.outcome.stopRequested || (c.world.takeStop S).1
  let noted : Cycle ω := { c with outcome := { c.outcome with stopRequested := stop } }
  have hv : c.world.Calls S (fun _ => True) told := World.Calls.refl.takeStop fun _ => trivial
  obtain ⟨rs, world, hd, ho, heq⟩ := collectAll_eq S now { noted with world := told }
  rw [onLookups_withWorld now noted told] at heq
  exact ⟨rs, world, stop, (World.takeStop_does S c.world).trans hd, ho.trans hv.outstanding_eq, heq⟩

theorem onCompletion_of_phase (S : System ω) (now : Nat) (h : c.connection.phase ≠ .resolving) :
    ∃ world stopRequested, onCompletion S now c = { c with world, outcome := { c.outcome with stopRequested } } := by
  obtain ⟨rs, world, stop, -, -, heq⟩ := onCompletion_eq S now c
  refine ⟨world, stop, ?_⟩
  rw [heq, onLookups_of_phase (c := { c with outcome := { c.outcome with stopRequested := stop } }) h]

theorem collectAll_path (S : System ω) (now : Nat) (c : Cycle ω) : Path S now c (collectAll S now c) := by
  induction c using collectAll.induct S now with
  | case1 c world hc =>
    rw [collectAll, hc]
    obtain rfl := World.collect_none S hc
    exact (task_probe World.Calls.refl.look).work.path
  | case2 c r world hc ih =>
    rw [collectAll, hc]
    exact .head (.collects hc) ih

theorem onCompletion_path (S : System ω) (now : Nat) (c : Cycle ω) : Path S now c (onCompletion S now c) :=
  .head .looks (collectAll_path S now _)

theorem dispatch_task {e : Readiness} (h : dispatch S now c e = .ok c') :
    e.token ≠ completionToken ∧ Task S now { c with world := c.world.record S (.handled e) } c' ∨
      e.token = completionToken ∧ c' = onCompletion S now { c with world := c.world.record S (.handled e) } := by
  unfold dispatch at h
  split at h
  · rename_i htoken
    exact .inl ⟨by rw [htoken]; nofun, onEvent_task h⟩
  · split at h
    · rename_i htoken
      exact .inr ⟨htoken, (Except.ok.inj h).symm⟩
    · rename_i htoken
      obtain rfl := Except.ok.inj h
      exact .inl ⟨htoken, .refl⟩

theorem dispatch_work {e : Readiness} (h : dispatch S now c e = .ok c') :
    e.token ≠ completionToken ∧ Work S now c c' ∨
      e.token = completionToken ∧ c' = onCompletion S now { c with world := c.world.record S (.handled e) } := by
  obtain ⟨htoken, h⟩ | h := dispatch_task h
  · exact .inl ⟨htoken, .head (.aside (World.Calls.refl.record rfl rfl)) h.work⟩
  · exact .inr h

theorem dispatch_path {e : Readiness} (h : dispatch S now c e = .ok c') : Path S now c c' := by
  obtain ⟨-, h⟩ | ⟨-, rfl⟩ := dispatch_work h
  · exact h.path
  · exact .head (.works (.aside (World.Calls.refl.record rfl rfl))) (onCompletion_path S now _)

theorem dispatchAll_path {events : List Readiness} (h : events.foldlM (dispatch S now) c = .ok c') : Path S now c c' :=
  Fault.foldlM_ok (fun _ => .refl) (fun h hp => (dispatch_path h).trans hp) h

theorem cycle_ok {e e' : Engine ω} {b b' : Buffers} {timeout : Option Nat} {r : Except WaitError Outcome}
    (h : e.cycle S b now timeout = .ok (r, e', b')) :
    ∃ c waited world c', Path S now (Point.idle e b).cycle c ∧
      c.world.wait S c.connection.settings.eventCapacity (waitTimeout c.connection now timeout) = (waited, world) ∧
      Path S now { c with world } c' ∧ e' = ⟨c'.connection, c'.world, {}⟩ := by
  obtain ⟨c, hc, h⟩ := Fault.bind_eq_ok.mp h
  obtain ⟨waited, world, hw, ha⟩ := attend_ok h
  cases ha with
  | failed code => exact ⟨c, _, world, _, (beforeWait_work hc).path, hw, .refl, rfl⟩
  | interrupted => exact ⟨c, _, world, _, (beforeWait_work hc).path, hw, afterEvents_path S now _, rfl⟩
  | events hd =>
    exact ⟨c, _, world, _, (beforeWait_work hc).path, hw, (dispatchAll_path hd).trans (afterEvents_path S now _), rfl⟩

inductive Step.Kind (S : System ω) : Point ω → Point ω → Prop
  | works {p q : Point ω} {now : Nat} {c : Cycle ω} (h : Work S now p.cycle c)
      (hconnection : q.cycle.connection = c.connection) (hworld : q.cycle.world = c.world) : Kind S p q
  | waits {now : Nat} {timeout : Option Nat} {c : Cycle ω} {waited : Call.Waited} {q : Point ω}
      (h : c.world.wait S c.connection.settings.eventCapacity (waitTimeout c.connection now timeout) =
        (waited, q.cycle.world)) (hconnection : q.cycle.connection = c.connection) : Kind S (.waiting now timeout c) q
  | completes (now : Nat) (c : Cycle ω) (e : Readiness) (left : List Readiness) :
      Kind S (.handling now c (e :: left))
        (.handling now (onCompletion S now { c with world := c.world.record S (.handled e) }) left)
  | asks {now : Nat} {c : Cycle ω} {retryAt : Nat} {q : Point ω} (hphase : c.connection.phase = .disconnected retryAt)
      (hdue : retryAt ≤ now)
      (hconnection : q.cycle.connection = (c.afterEvents S now (World.startLookup S)).connection)
      (hworld : q.cycle.world = (c.afterEvents S now (World.startLookup S)).world) : Kind S (.handling now c []) q

theorem Step.kind {p q : Point ω} (h : Step S p q) : Step.Kind S p q := by
  cases h with
  | begin timeout h => exact .works (beforeWait_work h) rfl rfl
  | failed h => exact .waits h rfl
  | interrupted h => exact .waits h rfl
  | ready h => exact .waits h rfl
  | handle h =>
    obtain ⟨-, h⟩ | ⟨-, rfl⟩ := dispatch_work h
    · exact .works h rfl rfl
    · exact .completes _ _ _ _
  | finish now c =>
    obtain h | ⟨retryAt, hphase, hdue⟩ := afterEvents_cases S now c
    · exact .works h.work rfl rfl
    · exact .asks hphase hdue rfl rfl

theorem StepAt.cases {p q : Point ω} (h : StepAt S now p q) :
    (∃ c, Path S now p.cycle c ∧ q.cycle.connection = c.connection ∧ q.cycle.world = c.world) ∨
    ∃ timeout c waited, p = .waiting now timeout c ∧
      c.world.wait S c.connection.settings.eventCapacity (waitTimeout c.connection now timeout) =
        (waited, q.cycle.world) ∧ q.cycle.connection = c.connection := by
  obtain ⟨hs, ht⟩ := h
  cases hs with
  | begin timeout h =>
    obtain rfl := by simpa [Point.time?] using ht
    exact .inl ⟨_, (beforeWait_work h).path, rfl, rfl⟩
  | failed h =>
    obtain rfl := by simpa [Point.time?] using ht
    exact .inr ⟨_, _, _, rfl, h, rfl⟩
  | interrupted h =>
    obtain rfl := by simpa [Point.time?] using ht
    exact .inr ⟨_, _, _, rfl, h, rfl⟩
  | ready h =>
    obtain rfl := by simpa [Point.time?] using ht
    exact .inr ⟨_, _, _, rfl, h, rfl⟩
  | handle h =>
    obtain rfl := by simpa [Point.time?] using ht
    exact .inl ⟨_, dispatch_path h, rfl, rfl⟩
  | finish now c =>
    obtain rfl := by simpa [Point.time?] using ht
    exact .inl ⟨_, afterEvents_path S _ c, rfl, rfl⟩

theorem Step.cases {p q : Point ω} (h : Step S p q) :
    (∃ now c, Path S now p.cycle c ∧ q.cycle.connection = c.connection ∧ q.cycle.world = c.world) ∨
    ∃ now timeout c waited, p = .waiting now timeout c ∧
      c.world.wait S c.connection.settings.eventCapacity (waitTimeout c.connection now timeout) =
        (waited, q.cycle.world) ∧ q.cycle.connection = c.connection := by
  obtain ⟨now, ht⟩ := h.timed
  obtain h | h := ht.cases
  · exact .inl ⟨now, h⟩
  · exact .inr ⟨now, h⟩

end Engine

end IrcLink
