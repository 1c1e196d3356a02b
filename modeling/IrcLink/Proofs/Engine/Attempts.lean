import IrcLink.Proofs.Engine.Deadlines
import IrcLink.Proofs.Engine.Pacing
import IrcLink.Proofs.Engine.SideBySide

/-!
Attempts to connect, from the dial to their end. An attempt has as much time as the settings give it, counted from the cycle
that dialled. When that is over it is given up where what is due by the clock is done, and not before; but the events of a
cycle come first, and an attempt that they find connected is not given up, however late it is.
-/

namespace IrcLink

namespace Event

theorem isRegistration_of_isAside {e : Event} (h : e.isAside = true) : e.isRegistration = false := by
  unfold isRegistration
  split
  · simp [isAside] at h
  · rfl

theorem isRegistration_of_stream {e : Event} {s : Socket} (h : e.stream? = some s) : e.isRegistration = false := by
  unfold isRegistration
  split
  · simp [stream?] at h
  · rfl

end Event

namespace World

variable {ω : Type} {S : System ω} {w w' w'' : World ω} {s s' : Socket} {a a' : SocketAddress}

abbrev OpensNone : World ω → World ω → Prop := Only (·.isRegistration = false)

/-- A connect to the address was begun on the socket and the socket is watched, and so no other was dialled after it. -/
def Opens (s : Socket) (a : SocketAddress) (w w' : World ω) : Prop :=
  ∃ opened, w.OpensNone opened ∧
    opened.Does [.call (.connect s a) .inProgress, .call (.register s socketToken .readWrite) (.ok ())] w'

theorem Opens.after (h : w.OpensNone w') (h' : w'.Opens s a w'') : w.Opens s a w'' := by
  obtain ⟨opened, ho, hd⟩ := h'
  exact ⟨opened, h.trans ho, hd⟩

theorem Opens.last (h : w.Opens s a w') {before after : List Event}
    (hd : w.Does (before ++ .call (.connect s' a') .inProgress :: .call (.register s' socketToken .readWrite) (.ok ()) :: after) w') :
    s' = s ∧ a' = a := by
  obtain ⟨opened, ⟨es, ho, hn⟩, hlast⟩ := h
  have heq := hd.unique (ho.trans hlast)
  obtain rfl | ⟨after', z, rfl⟩ := List.eq_nil_or_concat after
  · have hpair := (List.append_inj' heq rfl).2
    simp only [List.cons.injEq, Event.call.injEq, Call.connect.injEq] at hpair
    exact hpair.1.1
  · -- a registration that is not the last one is among what came before
    have hmem : Event.call (.register s' socketToken .readWrite) (.ok ()) ∈ es ++ [.call (.connect s a) .inProgress] := by
      have hsplit :
          (before ++ .call (.connect s' a') .inProgress :: .call (.register s' socketToken .readWrite) (.ok ()) :: after') ++ [z] =
            (es ++ [.call (.connect s a) .inProgress]) ++ [.call (.register s socketToken .readWrite) (.ok ())] := by
        simpa using heq
      rw [← (List.append_inj' hsplit rfl).1]
      simp
    obtain hmem | hmem := List.mem_append.mp hmem
    · exact absurd (hn _ hmem) nofun
    · exact absurd (List.mem_singleton.mp hmem) nofun

end World

namespace Cycle

variable {ω : Type} {S : System ω} {now : Nat} {c c' : Cycle ω} {s : Socket} {a : SocketAddress}
  {rest : List SocketAddress} {deadline : Nat} {e : Readiness}

def Opens (now : Nat) (c c' : Cycle ω) : Prop :=
  c.world.OpensNone c'.world ∨ ∃ s a rest, c.world.Opens s a c'.world ∧
    c'.connection.phase = .connecting s a rest (now + c.connection.settings.connectTimeout)

theorem Opens.after {world : World ω} (h : c.world.OpensNone world) (h' : Opens now { c with world } c') :
    Opens now c c' := by
  obtain h' | ⟨s, a, rest, h', hphase⟩ := h'
  · exact .inl (h.trans h')
  · exact .inr ⟨s, a, rest, .after h h', hphase⟩

theorem dialFirst_opens (S : System ω) (now : Nat) (c : Cycle ω) (addresses : List SocketAddress) :
    Opens now c (c.dialFirst S now addresses) := by
  induction addresses generalizing c with
  | nil => exact .inl (.refl _)
  | cons a rest ih =>
    unfold dialFirst
    dsimp only
    split
    · rename_i s world h
      exact .inr ⟨s, a, rest, World.dialWatched_some h, rfl⟩
    · rename_i world h
      have hrest : Opens now _ _ := ih { c.countStats fun t => { t with dials := t.dials + 1 } with world }
      exact .after (World.dialWatched_none h) hrest

theorem nextAddress_opens (S : System ω) (now : Nat) (c : Cycle ω) : Opens now c (c.nextAddress S now) := by
  unfold nextAddress
  split
  · exact dialFirst_opens S now c _
  · rename_i s a rest deadline hphase
    have hnone : c.world.OpensNone (c.world.abandon S s) :=
      (World.abandon_calls S c.world s).only.mono fun _ => Event.isRegistration_of_isUnwatched
    exact .after hnone (dialFirst_opens S now { c with world := c.world.abandon S s } rest)
  · exact .inl (.refl _)

theorem Works.opensNone (h : Works S now c c')
    (hs : c.connection.state = .connected ∨ c.connection.state = .disconnected) :
    c.world.OpensNone c'.world ∧ (c'.connection.state = .connected ∨ c'.connection.state = .disconnected) := by
  cases h with
  | aside h => exact ⟨h.only.mono fun _ => Event.isRegistration_of_isAside, hs⟩
  | receives hphase h =>
    obtain ⟨t, ht, -, rfl⟩ := receive_ok h
    have hr := (Transfer.receive_calls ht).only.mono fun _ => Event.isRegistration_of_stream
    exact ⟨hr.trans (.of_does (World.record_does S _ rfl) rfl), hs⟩
  | transmits hphase h =>
    obtain ⟨t, ht, -, rfl⟩ := transmit_ok h
    exact ⟨(Transfer.transmit_calls ht).only.mono fun _ => Event.isRegistration_of_stream, hs⟩
  | rearms => exact ⟨.refl _, hs⟩
  | mayWrite => exact ⟨.refl _, hs⟩
  | @watches s _ _ _ h =>
    have hd := World.call_does S c.world
      (c := .reregister s socketToken (if c.connection.flow.writeFull then .readWrite else .read)) nofun
    rw [h] at hd
    exact ⟨.of_does hd rfl, hs⟩
  | loses => exact ⟨(World.abandon_calls S c.world _).only.mono fun _ => Event.isRegistration_of_isUnwatched, .inr rfl⟩
  | connects hphase => simp [Connection.state, hphase] at hs
  | dials hstate =>
    obtain hstate | hstate := hstate
    all_goals simp [hstate] at hs

theorem Work.opensNone (h : Work S now c c')
    (hs : c.connection.state = .connected ∨ c.connection.state = .disconnected) :
    c.world.OpensNone c'.world ∧ (c'.connection.state = .connected ∨ c'.connection.state = .disconnected) := by
  induction h with
  | refl => exact ⟨.refl _, hs⟩
  | tail _ h ih =>
    obtain ⟨hnone, hs'⟩ := ih
    obtain ⟨hnone', hs''⟩ := h.opensNone hs'
    exact ⟨hnone.trans hnone', hs''⟩

theorem beforeWait_opensNone (h : c.beforeWait S now = .ok c') : c.world.OpensNone c'.world := by
  by_cases hs : c.connection.state = .connected
  · exact ((beforeWait_work h).opensNone (.inl hs)).1
  · obtain rfl := beforeWait_unlinked hs h
    exact .refl _

theorem onEvent_opens (h : c.onEvent S now e = .ok c') : Opens now c c' := by
  unfold onEvent at h
  split at h
  · rename_i s a rest deadline hphase
    obtain rfl := Except.ok.inj h
    have hnone {world : World ω} (hw : c.world.Calls S (·.isProbe = true) world) : c.world.OpensNone world :=
      hw.only.mono fun _ he => Event.isRegistration_of_isAside (Event.isAside_of_isProbe he)
    obtain ⟨world, hw, hc' | hc'⟩ | ⟨asked, world, hh, hr, hc'⟩ := onConnecting_ways S now c e s a
    all_goals rw [hc']
    · exact .inl (hnone hw)
    · exact .after (hnone hw) (nextAddress_opens S now { c with world })
    · have hasked := hasConnected_calls (S := S) c.world s
      have hd := World.call_does S asked (c := .reregister s socketToken .read) nofun
      rw [hh] at hasked
      rw [hr] at hd
      exact .inl ((hnone hasked).trans (.of_does hd rfl))
  · rename_i s peer hphase
    exact .inl ((onConnected_task hphase h).work.opensNone (.inl (Connection.state_eq_connected.mpr ⟨s, peer, hphase⟩))).1
  · obtain rfl := Except.ok.inj h
    exact .inl (.refl _)

theorem afterEvents_opens (S : System ω) (now : Nat) (c : Cycle ω) :
    Opens now c (c.afterEvents S now (World.startLookup S)) := by
  cases due_cases S now (World.startLookup S) c with
  | nothing h =>
    rw [h]
    exact .inl (.refl _)
  | lookup hphase hdue =>
    obtain ⟨l, hl⟩ := afterEvents_due (S := S) hphase hdue
    have hv : c.world.OpensNone (World.startLookup S l c.world).2 :=
      (World.startLookup_via S c.world l fun _ => rfl).only
    obtain ⟨world, h, hc⟩ | ⟨e, world, h, hc⟩ := hl
    all_goals
      rw [h] at hv
      rw [hc]
      exact .inl (hv.trans (.of_does (World.record_does S world rfl) rfl))
  | address h =>
    rw [h]
    exact nextAddress_opens S now c

/-- The socket is let go, and the addresses that are left are dialled until one is connecting, which then has its whole time
from now on. If none is left there is a pause. -/
structure GivesUp (S : System ω) (now : Nat) (s : Socket) (rest : List SocketAddress) (c c' : Cycle ω) : Prop where
  closed : ∃ answer es, c.world.Does (.call (.deregister s) answer :: .call (.close s) () :: es) c'.world
  next : ∃ tried left, tried ++ left = rest ∧ c.world.Shows Event.dialled? tried c'.world ∧
    (left = [] ∧ c'.connection.phase = .disconnected (now + c.connection.settings.retryDelay) ∨
      ∃ s' a', tried.getLast? = some a' ∧
        c'.connection.phase = .connecting s' a' left (now + c.connection.settings.connectTimeout))

theorem GivesUp.ne (h : GivesUp S now s rest c c') : c'.world ≠ c.world := by
  intro heq
  obtain ⟨answer, es, hd⟩ := h.closed
  rw [heq] at hd
  exact absurd (hd.unique (.refl _)) nofun

theorem nextAddress_givesUp (hphase : c.connection.phase = .connecting s a rest deadline) :
    GivesUp S now s rest c (c.nextAddress S now) := by
  have hnext : c.nextAddress S now = ({ c with world := c.world.abandon S s } : Cycle ω).dialFirst S now rest := by
    unfold nextAddress
    rw [hphase]
  have ht := dialFirst_tries S now { c with world := c.world.abandon S s } rest
  rw [← hnext] at ht
  have hderegister := World.call_does S c.world (c := .deregister s) nofun
  have hclose := World.call_does S (c.world.call S (.deregister s)).2 (c := .close s) nofun
  have hlet : c.world.Does [.call (.deregister s) _, .call (.close s) ()] (c.world.abandon S s) :=
    hderegister.trans hclose
  constructor
  · obtain ⟨es, hd, -⟩ := ht.calls.only
    exact ⟨_, es, hlet.trans hd⟩
  · obtain ⟨tried, happend, hshows, -, hlast⟩ := ht.dialled
    have hnone : c.world.Shows Event.dialled? [] (c.world.abandon S s) :=
      .of_does (fun _ => Event.dialled_of_foreign) hlet
    refine ⟨tried, _, happend, hnone.trans hshows, ?_⟩
    obtain hended | ⟨s', a', left, _, hended, -⟩ := ht.ended
    · exact .inl ⟨by rw [Connection.candidates, hended], hended⟩
    · refine .inr ⟨s', a', hlast a' (by rw [Connection.connecting?, hended]), ?_⟩
      rw [hended, Connection.candidates, hended]

theorem afterEvents_givesUp (hphase : c.connection.phase = .connecting s a rest deadline) (hdue : deadline ≤ now) :
    GivesUp S now s rest c (c.afterEvents S now (World.startLookup S)) := by
  have hc : c.afterEvents S now (World.startLookup S) = c.nextAddress S now := by
    simp only [afterEvents, hphase, if_pos hdue]
  rw [hc]
  exact nextAddress_givesUp hphase

theorem afterEvents_of_early {start : Start ω} (hphase : c.connection.phase = .connecting s a rest deadline)
    (hlt : now < deadline) : c.afterEvents S now start = c := by
  have hs : c.connection.state = .connecting := Connection.state_eq_connecting.mpr ⟨s, a, rest, deadline, hphase⟩
  refine afterEvents_of_deadline (by rw [hs]; nofun) fun d hd => ?_
  rw [Connection.deadline?, hphase] at hd
  exact Option.some.inj hd ▸ hlt

/-- Why an event may end an attempt: it tells of an error or a hangup, or the operating system has met an error or cannot say
whether there is one, does not know the peer, or will not watch the socket of the connection. -/
inductive Fails (S : System ω) (s : Socket) (e : Readiness) (w : World ω) : World ω → Prop
  | hangup (he : (e.error || e.closed) = true) : Fails S s e w (w.call S (.takeError s)).2
  | noAnswer {code : ErrorCode} {w' : World ω} (he : e.writable = true)
      (h : w.call S (.takeError s) = (.error code, w')) : Fails S s e w w'
  | pending {code : ErrorCode} {w' : World ω} (he : e.writable = true)
      (h : w.call S (.takeError s) = (.ok (some code), w')) : Fails S s e w w'
  | unconfirmed {code : ErrorCode} {asked w' : World ω} (he : e.writable = true)
      (hasked : w.call S (.takeError s) = (.ok none, asked)) (h : asked.call S (.peerAddress s) = (.failed code, w')) :
      Fails S s e w w'
  | unwatched {code : ErrorCode} {asked known w' : World ω} (he : e.writable = true)
      (hasked : w.call S (.takeError s) = (.ok none, asked)) (hknown : asked.call S (.peerAddress s) = (.known, known))
      (h : known.call S (.reregister s socketToken .read) = (.error code, w')) : Fails S s e w w'

theorem Fails.quiet {w w' : World ω} (h : Fails S s e w w') : w.Only (·.dialled? = none) w' := by
  have calls {w w' : World ω} {c : Call} {answer : c.Answer} (h : w.call S c = (answer, w')) (hc : c ≠ .wake) :
      w.Only (·.dialled? = none) w' := by
    have hd := World.call_does S w hc
    rw [h] at hd
    exact .of_does hd rfl
  cases h with
  | hangup => exact .of_does (World.call_does S w nofun) rfl
  | noAnswer _ h => exact calls h nofun
  | pending _ h => exact calls h nofun
  | unconfirmed _ hasked h => exact (calls hasked nofun).trans (calls h nofun)
  | unwatched _ hasked hknown h => exact ((calls hasked nofun).trans (calls hknown nofun)).trans (calls h nofun)

/-- The socket is writable, and the operating system confirms that it has connected and will watch it. -/
structure Succeeds (S : System ω) (s : Socket) (e : Readiness) (w w' : World ω) : Prop where
  writable : e.writable = true
  alive : (e.error || e.closed) = false
  confirmed : ∃ asked known, w.call S (.takeError s) = (.ok none, asked) ∧
    asked.call S (.peerAddress s) = (.known, known) ∧ known.call S (.reregister s socketToken .read) = (.ok (), w')

theorem hasConnected_cases (S : System ω) (w : World ω) (s : Socket) :
    (∃ w', hasConnected S w s = (none, w')) ∨
      (∃ w', hasConnected S w s = (some false, w') ∧ ∀ e : Readiness, e.writable = true → Fails S s e w w') ∨
      ∃ asked known, w.call S (.takeError s) = (.ok none, asked) ∧ asked.call S (.peerAddress s) = (.known, known) ∧
        hasConnected S w s = (some true, known) := by
  unfold hasConnected
  split
  · rename_i hasked
    exact .inr (.inl ⟨_, rfl, fun _ he => .noAnswer he hasked⟩)
  · rename_i hasked
    exact .inr (.inl ⟨_, rfl, fun _ he => .pending he hasked⟩)
  · rename_i asked hasked
    split
    · rename_i known hknown
      exact .inr (.inr ⟨asked, known, hasked, hknown, rfl⟩)
    · exact .inl ⟨_, rfl⟩
    · rename_i hpeer
      exact .inr (.inl ⟨_, rfl, fun _ he => .unconfirmed he hasked hpeer⟩)

theorem Succeeds.onConnecting {world : World ω} (h : Succeeds S s e c.world world) :
    c.onConnecting S now e s a = ({ c with world } : Cycle ω).connect s a := by
  obtain ⟨hw, hhup, asked, known, hasked, hknown, hr⟩ := h
  have hc : hasConnected S c.world s = (some true, known) := by simp only [hasConnected, hasked, hknown]
  simp only [Cycle.onConnecting, hhup, hw, hc, hr, Bool.false_eq_true, if_false, if_true]

theorem onConnecting_ends (S : System ω) (now : Nat) (c : Cycle ω) (e : Readiness) (s : Socket) (a : SocketAddress) :
    (c.onConnecting S now e s a).connection = c.connection ∨
      (∃ world, Fails S s e c.world world ∧ c.onConnecting S now e s a = ({ c with world } : Cycle ω).nextAddress S now) ∨
      ∃ world, Succeeds S s e c.world world ∧
        c.onConnecting S now e s a = ({ c with world } : Cycle ω).connect s a := by
  unfold onConnecting
  split
  · rename_i hhup
    exact .inr (.inl ⟨_, .hangup hhup, rfl⟩)
  · rename_i hhup
    split
    · rename_i hw
      obtain ⟨w, hc⟩ | ⟨w, hc, hfails⟩ | ⟨asked, known, hasked, hknown, hc⟩ := hasConnected_cases S c.world s
      · rw [hc]
        exact .inl rfl
      · rw [hc]
        exact .inr (.inl ⟨w, hfails e hw, rfl⟩)
      · rw [hc]
        dsimp only
        split
        · rename_i world hr
          exact .inr (.inr ⟨world, ⟨hw, Bool.eq_false_iff.mpr hhup, asked, known, hasked, hknown, hr⟩, rfl⟩)
        · rename_i code world hr
          exact .inr (.inl ⟨world, .unwatched hw hasked hknown hr, rfl⟩)
    · exact .inl rfl

end Cycle

namespace Engine

open IrcLink.Cycle

variable {ω : Type} {S : System ω} {first : Engine ω} {now began deadline : Nat} {p q : Point ω} {c c' : Cycle ω}
  {s : Socket} {a : SocketAddress} {rest : List SocketAddress} {e : Readiness}

theorem onCompletion_opensNone (S : System ω) (now : Nat) (c : Cycle ω) :
    c.world.OpensNone (onCompletion S now c).world := by
  obtain ⟨rs, world, stop, hd, -, heq⟩ := onCompletion_eq S now c
  rw [heq]
  refine ⟨_, hd, ?_⟩
  intro x hx
  obtain rfl | hx := List.mem_cons.mp hx
  · rfl
  · obtain ⟨r, -, rfl⟩ := List.mem_map.mp hx
    rfl

theorem dispatch_opens (h : dispatch S now c e = .ok c') : Opens now c c' := by
  have hr : c.world.OpensNone (c.world.record S (.handled e)) := .of_does (World.record_does S c.world rfl) rfl
  unfold dispatch at h
  split at h
  · exact .after hr (onEvent_opens h)
  · split at h
    · obtain rfl := Except.ok.inj h
      exact .inl (hr.trans (onCompletion_opensNone S now _))
    · obtain rfl := Except.ok.inj h
      exact .inl hr

theorem StepAt.opens (h : StepAt S now p q) : Opens now p.cycle q.cycle := by
  obtain ⟨h, htime⟩ := h
  cases h with
  | begin timeout h => exact .inl (beforeWait_opensNone h)
  | failed h => exact .inl (.of_does (World.wait_does S h) rfl)
  | interrupted h => exact .inl (.of_does (World.wait_does S h) rfl)
  | ready h => exact .inl (.of_does (World.wait_does S h) rfl)
  | handle h =>
    obtain rfl := by simpa [Point.time?] using htime
    exact dispatch_opens h
  | finish now c =>
    obtain rfl := by simpa [Point.time?] using htime
    exact afterEvents_opens S _ c

inductive Attempted (S : System ω) (s : Socket) (a : SocketAddress) (rest : List SocketAddress) (deadline : Nat) :
    Point ω → Point ω → Prop
  | goesOn {p q : Point ω} (h : q.cycle.connection = p.cycle.connection) : Attempted S s a rest deadline p q
  | timesOut {now : Nat} {c : Cycle ω} {q : Point ω} (hdue : deadline ≤ now) (h : GivesUp S now s rest c q.cycle) :
      Attempted S s a rest deadline (.handling now c []) q
  | fails {now : Nat} {c : Cycle ω} {e : Readiness} {left : List Readiness} {q : Point ω} {world : World ω}
      (he : e.token = socketToken) (hfails : Fails S s e (c.world.record S (.handled e)) world)
      (h : GivesUp S now s rest { c with world } q.cycle) : Attempted S s a rest deadline (.handling now c (e :: left)) q
  | connects {now : Nat} {c : Cycle ω} {e : Readiness} {left : List Readiness} {world : World ω}
      (he : e.token = socketToken) (hs : Succeeds S s e (c.world.record S (.handled e)) world) :
      Attempted S s a rest deadline (.handling now c (e :: left))
        (.handling now (({ c with world } : Cycle ω).connect s a) left)

theorem dispatch_attempted (hphase : c.connection.phase = .connecting s a rest deadline)
    (h : dispatch S now c e = .ok c') (left : List Readiness) :
    Attempted S s a rest deadline (.handling now c (e :: left)) (.handling now c' left) := by
  let noted : Cycle ω := { c with world := c.world.record S (.handled e) }
  unfold dispatch at h
  split at h
  · rename_i htoken
    unfold onEvent at h
    dsimp only at h
    rw [hphase] at h
    obtain rfl := Except.ok.inj h
    obtain hkept | ⟨world, hfails, hc⟩ | ⟨world, hs, hc⟩ := onConnecting_ends S now noted e s a
    · exact .goesOn hkept
    · refine .fails htoken hfails ?_
      change GivesUp S now s rest { c with world } (noted.onConnecting S now e s a)
      rw [hc]
      exact nextAddress_givesUp (c := { c with world }) hphase
    · change Attempted S s a rest deadline _ (.handling now (noted.onConnecting S now e s a) left)
      rw [hc]
      exact .connects htoken hs
  · split at h
    · obtain rfl := Except.ok.inj h
      obtain ⟨world, stop, hc⟩ := onCompletion_of_phase S now (c := noted) (by rw [hphase]; nofun)
      exact .goesOn (by simp only [Point.cycle]; rw [hc])
    · obtain rfl := Except.ok.inj h
      exact .goesOn rfl

theorem Step.attempted (h : Step S p q) (hphase : p.cycle.connection.phase = .connecting s a rest deadline) :
    Attempted S s a rest deadline p q := by
  cases h with
  | @begin e b _ timeout c h =>
    have hu : e.connection.state ≠ .connected := by
      have hphase : e.connection.phase = .connecting s a rest deadline := hphase
      exact Connection.state_ne_connected (by rw [hphase]; nofun)
    obtain rfl := beforeWait_unlinked hu h
    exact .goesOn rfl
  | failed => exact .goesOn rfl
  | interrupted => exact .goesOn rfl
  | ready => exact .goesOn rfl
  | handle h => exact dispatch_attempted hphase h _
  | finish now c =>
    have hphase : c.connection.phase = .connecting s a rest deadline := hphase
    by_cases hdue : deadline ≤ now
    · obtain ⟨hclosed, hnext⟩ : GivesUp S now s rest c (c.afterEvents S now (World.startLookup S)) :=
        afterEvents_givesUp hphase hdue
      exact .timesOut hdue ⟨hclosed, hnext⟩
    · have hc : c.afterEvents S now (World.startLookup S) = c := afterEvents_of_early hphase (Nat.not_le.mp hdue)
      exact .goesOn (by simp only [Point.cycle]; rw [hc])

theorem Attempted.goes_on (h : Attempted S s a rest deadline p q) (hq : q.cycle.connection.state = .connecting)
    (hnone : p.cycle.world.Shows Event.dialled? [] q.cycle.world) : q.cycle.connection = p.cycle.connection := by
  have dials {now : Nat} {c c' : Cycle ω} (h : GivesUp S now s rest c c') (hs : c'.connection.state = .connecting)
      (hnone : c.world.Shows Event.dialled? [] c'.world) : False := by
    obtain ⟨tried, left, -, hshows, ⟨-, hphase⟩ | ⟨s', a', hlast, -⟩⟩ := h.next
    · exact Connection.state_ne_connecting (by rw [hphase]; nofun) hs
    · obtain rfl := hnone.unique hshows
      exact absurd hlast nofun
  cases h with
  | goesOn h => exact h
  | timesOut hdue h => exact (dials h hq hnone).elim
  | @fails now c e left q world he hfails h =>
    have hquiet : c.world.Shows Event.dialled? [] world :=
      (World.Shows.record S c.world (.handled e)).trans (.of_only (fun _ => Event.dialled_of_foreign) hfails.quiet)
    obtain ⟨tried, left', -, hshows, -⟩ := h.next
    obtain rfl := hnone.unique (hquiet.trans hshows)
    exact (dials h hq hshows).elim
  | connects => exact absurd hq nofun

structure Made (s : Socket) (a : SocketAddress) (c : Cycle ω) : Prop where
  connected : c.outcome.connected = true
  stands : c.connection.phase = .connected s a ∨
    c.connection.state = .disconnected ∧ c.outcome.disconnected = true

theorem Made.congr (hc : Made s a c) (hconnection : c'.connection = c.connection)
    (hup : c'.outcome.connected = c.outcome.connected) (hdown : c'.outcome.disconnected = c.outcome.disconnected) :
    Made s a c' := by
  refine ⟨hup.trans hc.connected, ?_⟩
  rw [hconnection, hdown]
  exact hc.stands

theorem onEvent_made (hc : Made s a c) (h : c.onEvent S now e = .ok c') : Made s a c' := by
  obtain ⟨hup, hphase | ⟨hs, hd⟩⟩ := hc
  · unfold onEvent at h
    rw [hphase] at h
    cases onConnected_staysOrLoses h with
    | stays hs => exact ⟨by rw [hs.outcome_eq, hup], .inl (hs.phase_eq.trans hphase)⟩
    | @loses c₁ hs =>
      have hup₁ : c₁.outcome.connected = true := by rw [hs.outcome_eq, hup]
      exact ⟨hup₁, .inr ⟨rfl, rfl⟩⟩
  · rw [onEvent_of_disconnected hs] at h
    obtain rfl := Except.ok.inj h
    exact ⟨hup, .inr ⟨hs, hd⟩⟩

theorem dispatch_made (hc : Made s a c) (h : dispatch S now c e = .ok c') : Made s a c' := by
  have hr : Made s a { c with world := c.world.record S (.handled e) } := hc.congr rfl rfl rfl
  unfold dispatch at h
  split at h
  · exact onEvent_made hr h
  · split at h
    · obtain rfl := Except.ok.inj h
      have hphase : c.connection.phase ≠ .resolving := by
        obtain hphase | ⟨hs, -⟩ := hc.stands
        · rw [hphase]
          nofun
        · exact phase_of_disconnected hs
      obtain ⟨world, stop, hcompleted⟩ := onCompletion_of_phase S now
        (c := { c with world := c.world.record S (.handled e) }) hphase
      rw [hcompleted]
      exact hr.congr rfl rfl rfl
    · obtain rfl := Except.ok.inj h
      exact hr

theorem dispatchAll_made {events : List Readiness} (hc : Made s a c) (h : events.foldlM (dispatch S now) c = .ok c') :
    Made s a c' := by
  let R (c c' : Cycle ω) : Prop := Made s a c → Made s a c'
  have hnil (c : Cycle ω) : R c c := fun hc => hc
  have hcons {e : Readiness} {c c₁ c' : Cycle ω} (h : dispatch S now c e = .ok c₁) (hrest : R c₁ c') : R c c' :=
    fun hc => hrest (dispatch_made hc h)
  exact Fault.foldlM_ok hnil hcons h hc

inductive Attempt (S : System ω) (first : Engine ω) (s : Socket) (a : SocketAddress) (began : Nat) : Point ω → Prop
  | dialled {p q : Point ω} {before after : List Event} (hp : Visited S first p) (h : StepAt S began p q)
      (hd : p.cycle.world.Does
        (before ++ .call (.connect s a) .inProgress :: .call (.register s socketToken .readWrite) (.ok ()) :: after) q.cycle.world) :
      Attempt S first s a began q
  | step {p q : Point ω} (hp : Attempt S first s a began p) (h : Step S p q)
      (hq : q.cycle.connection.state = .connecting) (hnone : p.cycle.world.Shows Event.dialled? [] q.cycle.world) :
      Attempt S first s a began q
  | use {e : Engine ω} {b b' : Buffers} (hp : Attempt S first s a began (.idle e b)) (hb : b'.read.WellFormed) :
      Attempt S first s a began (.idle e b')

theorem Attempt.phase_eq (hp : Attempt S first s a began p) : ∃ rest,
    p.cycle.connection.phase = .connecting s a rest (began + first.connection.settings.connectTimeout) := by
  induction hp with
  | dialled hp h hd =>
    obtain ⟨es, hd', hn⟩ | ⟨s', a', rest, hopens, hphase⟩ := h.opens
    · obtain rfl := hd.unique hd'
      exact absurd (hn (.call (.register s socketToken .readWrite) (.ok ())) (by simp)) nofun
    · obtain ⟨rfl, rfl⟩ := hopens.last hd
      rw [hp.settings_eq] at hphase
      exact ⟨rest, hphase⟩
  | step _ h hq hnone ih =>
    obtain ⟨rest, hphase⟩ := ih
    exact ⟨rest, by rw [(h.attempted hphase).goes_on hq hnone, hphase]⟩
  | use _ _ ih => exact ih

/-- An attempt is given up by the clock where what is due is done at its deadline or later, and otherwise only by an event
that tells of a failure. An event that tells of success makes the connection, at whatever time, and the clock does nothing to
that any more. -/
theorem attempts_have_their_time (hp : Attempt S first s a began p) : ∃ rest,
    p.cycle.connection.phase = .connecting s a rest (began + first.connection.settings.connectTimeout) ∧
    (∀ now c, p = .handling now c [] →
      (GivesUp S now s rest c (c.afterEvents S now (World.startLookup S)) ↔
        began + first.connection.settings.connectTimeout ≤ now) ∧
      (now < began + first.connection.settings.connectTimeout → c.afterEvents S now (World.startLookup S) = c)) ∧
    (∀ q, Step S p q → Attempted S s a rest (began + first.connection.settings.connectTimeout) p q) ∧
    ∀ now c e left world, p = .handling now c (e :: left) → e.token = socketToken →
      Succeeds S s e (c.world.record S (.handled e)) world →
      dispatch S now c e = .ok (({ c with world } : Cycle ω).connect s a) ∧
      ∀ c', left.foldlM (dispatch S now) (({ c with world } : Cycle ω).connect s a) = .ok c' →
        (c'.afterEvents S now (World.startLookup S)).outcome.connected = true ∧
        (c'.connection.phase = .connected s a ∧ c'.afterEvents S now (World.startLookup S) = c' ∨
          c'.connection.state = .disconnected ∧ c'.outcome.disconnected = true) := by
  obtain ⟨rest, hphase⟩ := hp.phase_eq
  refine ⟨rest, hphase, ?_, fun q h => h.attempted hphase, ?_⟩
  · rintro now c rfl
    have hphase : c.connection.phase =
      .connecting s a rest (began + first.connection.settings.connectTimeout) := hphase
    refine ⟨⟨?_, afterEvents_givesUp hphase⟩, afterEvents_of_early hphase⟩
    intro h
    by_contra hlt
    exact h.ne (by rw [afterEvents_of_early hphase (Nat.not_le.mp hlt)])
  · rintro now c e left world rfl htoken hs
    have hphase : c.connection.phase =
      .connecting s a rest (began + first.connection.settings.connectTimeout) := hphase
    refine ⟨?_, ?_⟩
    · simp only [dispatch, htoken, if_true, onEvent, hphase]
      rw [Succeeds.onConnecting (c := { c with world := c.world.record S (.handled e) }) hs]
    · intro c' hc'
      have hmade : Made s a (({ c with world } : Cycle ω).connect s a) := ⟨rfl, .inl rfl⟩
      obtain ⟨hup, hstands⟩ := dispatchAll_made hmade hc'
      refine ⟨by rw [afterEvents_connected, hup], hstands.imp_left fun hphase' => ⟨hphase', ?_⟩⟩
      exact afterEvents_of_connected (Connection.state_eq_connected.mpr ⟨s, a, hphase'⟩) _

def oneAddress : Script where
  upcoming := [{}]
  turns := [{}, { lookup := some (some [testAddress 1]) }, { result := .events [ready] }]

theorem attempts_have_their_time_of_a_late_success : ∃ first c c',
    create Script.system { host := "irc.example.net", port := 6667 } 0 { os := oneAddress } = .ok first ∧
    Attempt Script.system first 0 (testAddress 1) 0 (.handling 5000 c [ready]) ∧
    c.connection.phase = .connecting 0 (testAddress 1) [] 5000 ∧ dispatch Script.system 5000 c ready = .ok c' ∧
    c'.connection.phase = .connected 0 (testAddress 1) ∧
    c'.afterEvents Script.system 5000 (World.startLookup Script.system) = c' := by
  have hS := Script.system_bounded
  let completion : Readiness := { token := completionToken, readable := true }
  obtain ⟨e, he⟩ : ∃ e, create Script.system { host := "irc.example.net", port := 6667 } 0 { os := oneAddress } = .ok e :=
    ⟨_, rfl⟩
  obtain ⟨b, hb⟩ : ∃ b, Buffers.create 4 = .ok b := ⟨_, rfl⟩
  let waited (now : Nat) (c : Cycle Script) : Call.Waited × World Script :=
    c.world.wait Script.system c.connection.settings.eventCapacity (waitTimeout c.connection now none)
  let dialled (c : Cycle Script) : Cycle Script := c.afterEvents Script.system 0 (World.startLookup Script.system)
  let noted (c : Cycle Script) : World Script := (waited 5000 c).2.record Script.system (.handled ready)
  let known (c : Cycle Script) : Option Bool × World Script := hasConnected Script.system (noted c) 0
  let watched (c : Cycle Script) : Except ErrorCode Unit × World Script :=
    (known c).2.call Script.system (.reregister 0 socketToken .read)
  have heval : (do
      let (_, e, b) ← e.cycle Script.system b 0 none
      let c₁ ← Cycle.beforeWait Script.system 0 ⟨e.connection, b, e.world, {}⟩
      let c₂ ← dispatch Script.system 0 { c₁ with world := (waited 0 c₁).2 } completion
      let d := dialled c₂
      let c ← Cycle.beforeWait Script.system 5000 ⟨d.connection, d.buffers, d.world, {}⟩
      let seg : Journal := d.world.journal.drop c₂.world.journal.length
      return ((waited 0 c₁).1, d.connection.phase, (waited 5000 c).1, (known c).1,
        seg.own.any Event.isRegistration && (watched c).1.isOk)) =
          .ok (.events [completion], .connecting 0 (testAddress 1) [] 5000, .events [ready], some true, true) := by
    obtain rfl := Except.ok.inj he
    obtain rfl := Except.ok.inj hb
    decide +kernel
  obtain ⟨_, e₁, b₁, h₁⟩ := cycle_isOk hS e b 0 none
  obtain ⟨c₁, hc₁⟩ := Cycle.beforeWait_isOk hS 0 ⟨e₁.connection, b₁, e₁.world, {}⟩
  obtain ⟨c₂, hc₂⟩ := dispatch_isOk hS 0 { c₁ with world := (waited 0 c₁).2 } completion
  let d := dialled c₂
  obtain ⟨c, hc⟩ := Cycle.beforeWait_isOk hS 5000 ⟨d.connection, d.buffers, d.world, {}⟩
  simp only [h₁, hc₁, hc₂, hc, d, bind, Except.bind, pure, Except.pure, Except.ok.injEq, Prod.mk.injEq] at heval
  obtain ⟨hw₁, hphase, hw, hknown, hboth⟩ := heval
  obtain ⟨hregistered, hwatched⟩ := Bool.and_eq_true_iff.mp hboth
  obtain ⟨_, hread⟩ := (counted_of_create he hb).read
  have hvisited : Visited Script.system e (.handling 0 c₂ []) :=
    ((((Visited.start hread.wellFormed).steps (cycle_steps h₁)).step (.begin none hc₁)).step
      (.ready (Prod.ext hw₁ rfl))).step (.handle hc₂)
  have hfinish : StepAt Script.system 0 (.handling 0 c₂ []) (.idle ⟨d.connection, d.world, {}⟩ d.buffers) :=
    ⟨.finish 0 c₂, rfl⟩
  have hdialled : Attempt Script.system e 0 (testAddress 1) 0 (.idle ⟨d.connection, d.world, {}⟩ d.buffers) := by
    obtain ⟨es, ⟨seg, hj, rfl⟩, hn⟩ | ⟨s, a, rest, ⟨opened, ⟨es, hd, -⟩, hd'⟩, hphase'⟩ := hfinish.opens
    · have hseg : d.world.journal.drop c₂.world.journal.length = seg := by
        have hj : d.world.journal = c₂.world.journal ++ seg := hj
        rw [hj, List.drop_left]
      rw [hseg, List.any_eq_true] at hregistered
      obtain ⟨x, hx, hx'⟩ := hregistered
      rw [hn x hx] at hx'
      exact absurd hx' nofun
    · obtain ⟨rfl, rfl, -, -⟩ := Phase.connecting.inj (hphase.symm.trans hphase')
      exact .dialled hvisited hfinish (hd.trans hd')
  have hsame : c = ⟨d.connection, d.buffers, d.world, {}⟩ := by
    have hu : d.connection.state ≠ .connected := Connection.state_ne_connected (by rw [hphase]; nofun)
    exact beforeWait_unlinked hu hc
  have hphase' : c.connection.phase = .connecting 0 (testAddress 1) [] 5000 := by rw [hsame]; exact hphase
  have hwaiting : Attempt Script.system e 0 (testAddress 1) 0 (.waiting 5000 none c) := by
    have hs : Step Script.system (.idle ⟨d.connection, d.world, {}⟩ d.buffers) (.waiting 5000 none c) := .begin none hc
    refine hdialled.step hs (Connection.state_eq_connecting.mpr ⟨_, _, _, _, hphase'⟩) ?_
    change d.world.Shows Event.dialled? [] c.world
    rw [hsame]
    exact .refl _
  have hready : Step Script.system (.waiting 5000 none c) (.handling 5000 { c with world := (waited 5000 c).2 } [ready]) :=
    .ready (Prod.ext hw rfl)
  have hp : Attempt Script.system e 0 (testAddress 1) 0 (.handling 5000 { c with world := (waited 5000 c).2 } [ready]) := by
    refine hwaiting.step hready (Connection.state_eq_connecting.mpr ⟨_, _, _, _, hphase'⟩) ?_
    obtain ⟨waited, hd⟩ : ∃ waited, c.world.Does [.call (.wait _ _) waited] _ := ⟨_, World.wait_does _ (Prod.ext hw rfl)⟩
    exact .of_does (fun _ => Event.dialled_of_foreign) hd
  obtain ⟨-, -, -, -, hlate⟩ := attempts_have_their_time hp
  have hs : Succeeds Script.system 0 ready (noted c) (watched c).2 := by
    obtain ⟨w, hnone⟩ | ⟨w, hfalse, -⟩ | ⟨asked, w, hasked, hpeer, htrue⟩ := hasConnected_cases Script.system (noted c) 0
    · exact absurd ((congrArg Prod.fst hnone).symm.trans hknown) nofun
    · exact absurd ((congrArg Prod.fst hfalse).symm.trans hknown) nofun
    · obtain rfl : (known c).2 = w := congrArg Prod.snd htrue
      have hw : (watched c).1 = .ok () := by
        cases hr : (watched c).1 with
        | ok => rfl
        | error code =>
          rw [hr] at hwatched
          exact absurd hwatched nofun
      exact ⟨rfl, rfl, asked, (known c).2, hasked, hpeer, Prod.ext hw rfl⟩
  obtain ⟨hmade, hstays⟩ := hlate 5000 _ ready [] _ rfl rfl hs
  obtain ⟨-, ⟨hphase₂, hafter⟩ | ⟨hdown, -⟩⟩ := hstays _ rfl
  · exact ⟨e, _, _, he, hp, hphase', hmade, hphase₂, hafter⟩
  · exact absurd hdown nofun

end Engine

end IrcLink
