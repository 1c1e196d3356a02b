import IrcLink.Proofs.Engine.Batch
import IrcLink.Proofs.Engine.Lookups

/-!
From the result of a lookup on, its addresses are tried in their order, each of them once: what was dialled and what is left to
try always make up the addresses that were found. They are gone through in more than one place, since the engine comes back to
them when a candidate fails and when it takes too long; but no step dials any address other than the next ones.
-/

namespace IrcLink

namespace Cycle

variable {ω : Type} {S : System ω} {now : Nat} {start : World ω} {dials : Nat} {addresses tried : List SocketAddress}
  {c c' : Cycle ω}

/-- Since the start these of the addresses were dialled. -/
structure Tried (start : World ω) (dials : Nat) (addresses tried : List SocketAddress) (c : Cycle ω) : Prop where
  shows : start.Shows Event.dialled? tried c.world
  dials_eq : c.connection.stats.dials = dials + tried.length
  isPrefix : tried <+: addresses
  left : c.connection.state ≠ .connected → tried ++ c.connection.candidates = addresses
  last : ∀ a, c.connection.connecting? = some a ∨ c.connection.peer? = some a → tried.getLast? = some a
  not_resolving : c.connection.state ≠ .resolving

namespace Tried

theorem found {first : SocketAddress} {rest : List SocketAddress}
    (hc : c'.connection = { c.connection with phase := .resolved first rest })
    (hw : c.world.Shows Event.dialled? [] c'.world) :
    Tried c.world c.connection.stats.dials (first :: rest) [] c' := by
  obtain ⟨connection, buffers, world, outcome⟩ := c'
  obtain rfl : connection = _ := hc
  refine ⟨hw, rfl, List.nil_prefix, fun _ => rfl, ?_, nofun⟩
  rintro a (ha | ha)
  all_goals exact absurd ha nofun

theorem rests (h : Tried start dials addresses tried c) (hc : c'.connection = c.connection)
    (hw : c.world.Shows Event.dialled? [] c'.world) : Tried start dials addresses tried c' := by
  obtain ⟨hshows, hdials, hprefix, hleft, hlast, hn⟩ := h
  rw [← hc] at hdials hleft hlast hn
  have hshows' := hshows.trans hw
  rw [List.append_nil] at hshows'
  exact ⟨hshows', hdials, hprefix, hleft, hlast, hn⟩

theorem tries (h : Tried start dials addresses tried c) (hu : c.connection.state ≠ .connected)
    (ht : Tries S now c.connection.candidates c c') : ∃ tried', Tried start dials addresses tried' c' := by
  obtain ⟨more, hmore, hshows, hdials, hlast⟩ := ht.dialled
  have happend : (tried ++ more) ++ c'.connection.candidates = addresses := by
    rw [List.append_assoc, hmore]
    exact h.left hu
  have hended : c'.connection.peer? = none ∧ c'.connection.state ≠ .resolving := by
    obtain hphase | ⟨_, _, _, _, hphase, -⟩ := ht.ended <;> simp [Connection.peer?, Connection.state, hphase]
  refine ⟨tried ++ more, h.shows.trans hshows, ?_, ⟨_, happend⟩, fun _ => happend, ?_, hended.2⟩
  · rw [hdials, h.dials_eq, List.length_append, Nat.add_assoc]
  · rintro a (ha | ha)
    · rw [List.getLast?_append, hlast a ha, Option.some_or]
    · simp [hended.1] at ha

theorem connects (h : Tried start dials addresses tried c) {s : Socket} {a : SocketAddress} {rest : List SocketAddress}
    {deadline : Nat} (hphase : c.connection.phase = .connecting s a rest deadline) {world : World ω}
    (hw : c.world.Shows Event.dialled? [] world) :
    Tried start dials addresses tried (({ c with world } : Cycle ω).connect s a) := by
  have hshows := h.shows.trans hw
  rw [List.append_nil] at hshows
  refine ⟨hshows, h.dials_eq, h.isPrefix, fun hu => absurd rfl hu, ?_, nofun⟩
  rintro b (hb | hb)
  · exact absurd hb nofun
  · -- the peer is the candidate, and no address was dialled after it
    obtain rfl : a = b := Option.some.inj hb
    exact h.last a (.inl (by rw [Connection.connecting?, hphase]))

end Tried

end Cycle

namespace Engine

open IrcLink.Cycle

variable {ω : Type} {S : System ω} {now : Nat} {start : World ω} {dials : Nat} {addresses tried : List SocketAddress}
  {c c' : Cycle ω}

theorem onLookups_congr (now : Nat) (c c' : Cycle ω) (hc : c'.connection = c.connection)
    (ho : c'.outcome.lookupFailed = c.outcome.lookupFailed) (rs : List Resolution) :
    (rs.foldl (onLookup now) c').connection = (rs.foldl (onLookup now) c).connection := by
  induction rs generalizing c c' with
  | nil => exact hc
  | cons r rs ih =>
    obtain ⟨hc', ho'⟩ := onLookup_congr now c c' hc ho r
    exact ih _ _ hc' ho'

theorem onCompletion_tells (S : System ω) (now : Nat) (c : Cycle ω) :
    ∃ rs, c.world.Shows Event.collected? rs (onCompletion S now c).world ∧
      c.world.Shows Event.dialled? [] (onCompletion S now c).world ∧
      (onCompletion S now c).connection = (rs.foldl (onLookup now) c).connection := by
  obtain ⟨rs, world, stopRequested, hd, -, heq⟩ := onCompletion_eq S now c
  have hc := World.Shows.of_does (fun _ he => Event.collected_of_looksUp _ (Event.looksUp_of_foreign he)) hd
  have hn := World.Shows.of_does (fun _ => Event.dialled_of_foreign) hd
  have hresults : (rs.map Event.collected).filterMap Event.collected? = rs := by
    rw [List.filterMap_map]
    exact List.filterMap_some
  have hnone : (rs.map Event.collected).filterMap Event.dialled? = [] := by simp [Event.dialled?]
  rw [List.filterMap_cons_none rfl, hresults] at hc
  rw [List.filterMap_cons_none rfl, hnone] at hn
  rw [heq]
  refine ⟨rs, hc, hn, ?_⟩
  exact onLookups_congr now c { c with outcome := { c.outcome with stopRequested } } rfl rfl rs

theorem onConnecting_tried (h : Tried start dials addresses tried c) {s : Socket} {a : SocketAddress}
    {rest : List SocketAddress} {deadline : Nat} (hphase : c.connection.phase = .connecting s a rest deadline)
    (e : Readiness) : ∃ tried', Tried start dials addresses tried' (c.onConnecting S now e s a) := by
  have hstate : c.connection.state = .connecting := Connection.state_eq_connecting.mpr ⟨s, a, rest, deadline, hphase⟩
  have quiet {world : World ω} (hw : c.world.Calls S (·.isProbe = true) world) : c.world.Shows Event.dialled? [] world :=
    .of_only (fun _ => Event.dialled_of_foreign) (hw.only.mono fun _ he => Event.dialled_of_isAside (Event.isAside_of_isProbe he))
  obtain ⟨world, hw, hc' | hc'⟩ | ⟨asked, world, hh, hr, hc'⟩ := onConnecting_ways S now c e s a
  all_goals rw [hc']
  · exact ⟨tried, h.rests rfl (quiet hw)⟩
  · have hrests : Tried start dials addresses tried { c with world } := h.rests rfl (quiet hw)
    exact hrests.tries (by rw [hstate]; nofun) (nextAddress_tries S now (.inr hstate))
  · have hasked := hasConnected_calls (S := S) c.world s
    have hd := World.call_does S asked (c := .reregister s socketToken .read) nofun
    rw [hh] at hasked
    rw [hr] at hd
    exact ⟨tried, h.connects hphase ((quiet hasked).trans (.of_does (fun _ => Event.dialled_of_foreign) hd))⟩

theorem onEvent_tried (h : Tried start dials addresses tried c) (hu : c.connection.state ≠ .connected) {e : Readiness}
    (he : c.onEvent S now e = .ok c') : ∃ tried', Tried start dials addresses tried' c' := by
  unfold onEvent at he
  split at he
  · rename_i hphase
    obtain rfl := Except.ok.inj he
    exact onConnecting_tried h hphase e
  · rename_i s peer hphase
    exact absurd (Connection.state_eq_connected.mpr ⟨s, peer, hphase⟩) hu
  · obtain rfl := Except.ok.inj he
    exact ⟨tried, h⟩

theorem dispatch_tried (h : Tried start dials addresses tried c) (hu : c.connection.state ≠ .connected) {e : Readiness}
    (hd : dispatch S now c e = .ok c') : ∃ tried', Tried start dials addresses tried' c' := by
  let noted : Cycle ω := { c with world := c.world.record S (.handled e) }
  have hnoted : Tried start dials addresses tried noted := h.rests rfl (.record S c.world (.handled e))
  unfold dispatch at hd
  split at hd
  · exact onEvent_tried hnoted hu hd
  · split at hd
    · obtain rfl := Except.ok.inj hd
      obtain ⟨rs, -, hw, hc⟩ := onCompletion_tells S now noted
      rw [onLookups_of_phase fun hphase => hnoted.not_resolving (Connection.state_eq_resolving.mpr hphase)] at hc
      exact ⟨tried, hnoted.rests hc hw⟩
    · obtain rfl := Except.ok.inj hd
      exact ⟨tried, hnoted⟩

theorem afterEvents_tried (h : Tried start dials addresses tried c) (hu : c.connection.state ≠ .connected)
    (hd : c.connection.state ≠ .disconnected) :
    ∃ tried', Tried start dials addresses tried' (c.afterEvents S now (World.startLookup S)) := by
  cases due_cases S now (World.startLookup S) c with
  | nothing h' => exact ⟨tried, by rwa [h']⟩
  | lookup hphase => exact absurd (Connection.state_eq_disconnected.mpr ⟨_, hphase⟩) hd
  | address h' hs =>
    rw [h']
    exact h.tries hu (nextAddress_tries S now (hs.imp_right And.left))

theorem Step.tries {p q : Point ω} (h : Step S p q) (hp : Tried start dials addresses tried p.cycle)
    (hu : p.cycle.connection.state ≠ .connected) (hd : p.cycle.connection.state ≠ .disconnected) :
    ∃ tried', Tried start dials addresses tried' q.cycle := by
  have waits {c : Cycle ω} {timeout : Option Nat} {waited : Call.Waited} {world : World ω}
      (hwait : c.world.wait S c.connection.settings.eventCapacity timeout = (waited, world)) :
      c.world.Shows Event.dialled? [] world := by
    exact .of_does (fun _ => Event.dialled_of_foreign) (World.wait_does S hwait)
  cases h with
  | begin timeout h =>
    obtain rfl := beforeWait_unlinked hu h
    exact ⟨tried, hp⟩
  | failed h => exact ⟨tried, hp.rests rfl (waits h)⟩
  | interrupted h => exact ⟨tried, hp.rests rfl (waits h)⟩
  | ready h => exact ⟨tried, hp.rests rfl (waits h)⟩
  | handle h => exact dispatch_tried hp hu h
  | finish now c =>
    obtain ⟨tried', h⟩ : ∃ tried', Tried start dials addresses tried' (c.afterEvents S now (World.startLookup S)) :=
      afterEvents_tried hp hu hd
    exact ⟨tried', h.rests rfl (.refl _)⟩

theorem Step.finds {p q : Point ω} (h : Step S p q) (hp : p.cycle.connection.phase = .resolving) {first : SocketAddress}
    {rest : List SocketAddress} {more : List Resolution}
    (hfound : p.cycle.world.Shows Event.collected? (.ok (first :: rest) :: more) q.cycle.world) :
    Tried p.cycle.world p.cycle.connection.stats.dials (first :: rest) [] q.cycle := by
  have nothing (hw : World.Only (·.looksUp = false) p.cycle.world q.cycle.world) : False := by
    have hn := hfound.unique (.of_no_lookup Event.collected_of_looksUp hw)
    simp at hn
  cases h.kind with
  | works h _ hworld =>
    have hw := h.calls.only.mono fun _ => Event.looksUp_of_isWork
    rw [← hworld] at hw
    exact (nothing hw).elim
  | waits h _ => exact (nothing (.of_does (World.wait_does S h) rfl)).elim
  | completes now c e left =>
    let noted : Cycle ω := { c with world := c.world.record S (.handled e) }
    obtain ⟨rs, hc, hn, hconnection⟩ := onCompletion_tells S now noted
    have hrecord {α : Type} (f : Event → Option α) (hf : f (.handled e) = none) : c.world.Shows f [] noted.world := by
      have hr := World.Shows.record (f := f) S c.world (.handled e)
      rwa [hf] at hr
    obtain rfl := hfound.unique ((hrecord Event.collected? rfl).trans hc)
    have hphase : noted.connection.phase = .resolving := hp
    have hresolved : (noted.onLookup now (.ok (first :: rest))) = noted.setPhase (.resolved first rest) := by
      simp only [onLookup, hphase]
    -- further results come to a connection that does not wait any more
    rw [List.foldl_cons, hresolved, onLookups_of_phase (by simp [setPhase])] at hconnection
    exact .found hconnection ((hrecord Event.dialled? rfl).trans hn)
  | @asks _ c _ _ hphase =>
    have hp : c.connection.phase = .resolving := hp
    simp [hphase] at hp

inductive Search (S : System ω) (start : Point ω) : Point ω → Prop
  | start : Search S start start
  | step {p q : Point ω} (hp : Search S start p) (hu : p.cycle.connection.state ≠ .connected)
      (hd : p.cycle.connection.state ≠ .disconnected) (h : Step S p q) : Search S start q
  | use {e : Engine ω} {b : Buffers} (hp : Search S start (.idle e b)) (b' : Buffers) : Search S start (.idle e b')

theorem Search.tries {p q : Point ω} (hq : Search S p q) (hp : Tried start dials addresses tried p.cycle) :
    ∃ tried', Tried start dials addresses tried' q.cycle := by
  induction hq with
  | start => exact ⟨tried, hp⟩
  | step _ hu hd h ih =>
    obtain ⟨tried', ht⟩ := ih
    exact h.tries ht hu hd
  | use _ b' ih =>
    obtain ⟨tried', ht⟩ := ih
    exact ⟨tried', ht.rests rfl (.refl _)⟩

theorem tries_candidates_in_order {p q r : Point ω} {first : SocketAddress} {rest : List SocketAddress}
    {more : List Resolution} (hresolving : p.cycle.connection.phase = .resolving) (h : Step S p q)
    (hfound : p.cycle.world.Shows Event.collected? (.ok (first :: rest) :: more) q.cycle.world) (hr : Search S q r) :
    r.cycle.connection.state ≠ .resolving ∧
    ∃ tried, p.cycle.world.Shows Event.dialled? tried r.cycle.world ∧
      r.cycle.connection.stats.dials = p.cycle.connection.stats.dials + tried.length ∧
      -- no address is skipped, and none tried again
      tried <+: first :: rest ∧
      (r.cycle.connection.state ≠ .connected → tried ++ r.cycle.connection.candidates = first :: rest) ∧
      -- all were tried in vain, or the last that was tried is the peer
      (r.cycle.connection.state = .disconnected → tried = first :: rest) ∧
      (∀ peer, r.cycle.connection.peer? = some peer → tried.getLast? = some peer) ∧
      ∀ a, r.cycle.connection.connecting? = some a → tried.getLast? = some a := by
  obtain ⟨tried, ht⟩ := hr.tries (h.finds hresolving hfound)
  refine ⟨ht.not_resolving, tried, ht.shows, ht.dials_eq, ht.isPrefix, ht.left, ?_, fun peer hpeer => ht.last peer (.inr hpeer),
    fun a ha => ht.last a (.inl ha)⟩
  intro hs
  have hleft := ht.left (by rw [hs]; nofun)
  obtain ⟨retryAt, hphase⟩ := Connection.state_eq_disconnected.mp hs
  rwa [Connection.candidates, hphase, List.append_nil] at hleft

/-- Of five addresses the first finds no socket, the second is writable before it is connected and then meets an error, the third
cannot be watched, and the fourth connects. -/
def fiveAddresses : Script where
  upcoming := [{ create := .error "EMFILE" }, { peer := [.notConnected] }, { register := [.error "ENOSPC"] }, {}]
  turns := [{}, { lookup := some (some ([1, 2, 3, 4, 5].map testAddress)) }, { result := .events [ready, broken, ready] }]

def woken : Readiness := { token := completionToken, readable := true }

theorem fiveAddresses_ok :
    ∃ first p q r, create Script.system { host := "irc.example.net", port := 6667 } 0 { os := fiveAddresses } = .ok first ∧
      Visited Script.system first p ∧ p.cycle.connection.phase = .resolving ∧ Step Script.system p q ∧
      p.cycle.world.Shows Event.collected? [.ok ([1, 2, 3, 4, 5].map testAddress)] q.cycle.world ∧
      Search Script.system q r ∧ r.cycle.connection.peer? = some (testAddress 4) := by
  have hS := Script.system_bounded
  obtain ⟨e, he⟩ : ∃ e, create Script.system { host := "irc.example.net", port := 6667 } 0 { os := fiveAddresses } = .ok e :=
    ⟨_, rfl⟩
  obtain ⟨b, hb⟩ : ∃ b, Buffers.create 4 = .ok b := ⟨_, rfl⟩
  have hfinds : (do
      let (_, e₁, b) ← e.cycle Script.system b 0 none
      let c ← Cycle.beforeWait Script.system 0 ⟨e₁.connection, b, e₁.world, {}⟩
      let waited := c.world.wait Script.system c.connection.settings.eventCapacity (waitTimeout c.connection 0 none)
      let found ← dispatch Script.system 0 { c with world := waited.2 } woken
      return (waited.1, c.connection.state, Journal.collected (found.world.journal.drop waited.2.journal.length))) =
        .ok (.events [woken], .resolving, [.ok ([1, 2, 3, 4, 5].map testAddress)]) := by
    obtain rfl := Except.ok.inj he
    obtain rfl := Except.ok.inj hb
    decide +kernel
  have htries : (do
      let (_, e₁, b) ← e.cycle Script.system b 0 none
      let c ← Cycle.beforeWait Script.system 0 ⟨e₁.connection, b, e₁.world, {}⟩
      let waited := c.world.wait Script.system c.connection.settings.eventCapacity (waitTimeout c.connection 0 none)
      let found ← dispatch Script.system 0 { c with world := waited.2 } woken
      let c₁ := found.afterEvents Script.system 0 (World.startLookup Script.system)
      let c₂ ← Cycle.beforeWait Script.system 0 ⟨c₁.connection, c₁.buffers, c₁.world, {}⟩
      let waited' := c₂.world.wait Script.system c₂.connection.settings.eventCapacity (waitTimeout c₂.connection 0 none)
      let c₃ ← dispatch Script.system 0 { c₂ with world := waited'.2 } ready
      let c₄ ← dispatch Script.system 0 c₃ broken
      let c₅ ← dispatch Script.system 0 c₄ ready
      return (waited'.1, [found.connection.state, c₁.connection.state, c₂.connection.state, c₃.connection.state,
        c₄.connection.state], c₅.connection.peer?)) =
        .ok (.events [ready, broken, ready], [.resolved, .connecting, .connecting, .connecting, .connecting],
          some (testAddress 4)) := by
    obtain rfl := Except.ok.inj he
    obtain rfl := Except.ok.inj hb
    decide +kernel
  obtain ⟨_, e₁, b₁, h₁⟩ := cycle_isOk hS e b 0 none
  obtain ⟨c, hc⟩ := Cycle.beforeWait_isOk hS 0 ⟨e₁.connection, b₁, e₁.world, {}⟩
  simp only [h₁, hc, bind, Except.bind] at hfinds htries
  let waited := c.world.wait Script.system c.connection.settings.eventCapacity (waitTimeout c.connection 0 none)
  obtain ⟨found, hfound⟩ := dispatch_isOk hS 0 { c with world := waited.2 } woken
  let c₁ := found.afterEvents Script.system 0 (World.startLookup Script.system)
  obtain ⟨c₂, hc₂⟩ := Cycle.beforeWait_isOk hS 0 ⟨c₁.connection, c₁.buffers, c₁.world, {}⟩
  let waited' := c₂.world.wait Script.system c₂.connection.settings.eventCapacity (waitTimeout c₂.connection 0 none)
  obtain ⟨c₃, hc₃⟩ := dispatch_isOk hS 0 { c₂ with world := waited'.2 } ready
  obtain ⟨c₄, hc₄⟩ := dispatch_isOk hS 0 c₃ broken
  obtain ⟨c₅, hc₅⟩ := dispatch_isOk hS 0 c₄ ready
  simp only [waited, hfound, pure, Except.pure, Except.ok.injEq, Prod.mk.injEq] at hfinds
  simp only [waited, hfound, c₁, hc₂, waited', hc₃, hc₄, hc₅, pure, Except.pure, Except.ok.injEq, Prod.mk.injEq,
    List.cons.injEq] at htries
  obtain ⟨hwaited, hs, hcollected⟩ := hfinds
  obtain ⟨hwaited', ⟨hs₀, hs₁, hs₂, hs₃, hs₄, -⟩, hpeer⟩ := htries
  obtain ⟨_, hread⟩ := (counted_of_create he hb).read
  have hp : Visited Script.system e (.handling 0 { c with world := waited.2 } [woken]) :=
    (((Visited.start hread.wellFormed).steps (cycle_steps h₁)).step (.begin none hc)).step (.ready (Prod.ext hwaited rfl))
  have hstep : Step Script.system (.handling 0 { c with world := waited.2 } [woken]) (.handling 0 found []) := .handle hfound
  have hfound : waited.2.Shows Event.collected? [.ok ([1, 2, 3, 4, 5].map testAddress)] found.world := by
    obtain ⟨_, hm⟩ := hstep.carries
    have hshows := World.Goes.shows ⟨_, hm.does⟩ Event.collected?
    rwa [← hcollected]
  have searches {p q r : Point Script} {state : State} (hq : Search Script.system p q) (hs : q.cycle.connection.state = state)
      (hstate : state ≠ .connected ∧ state ≠ .disconnected) (h : Step Script.system q r) : Search Script.system p r :=
    hq.step (by rw [hs]; exact hstate.1) (by rw [hs]; exact hstate.2) h
  have hstart : Search Script.system (.handling 0 found []) (.handling 0 found []) := .start
  have hdialled := searches hstart hs₀ (by decide) (.finish 0 found)
  have hbegun := searches hdialled hs₁ (by decide) (.begin none hc₂)
  have hready := searches hbegun hs₂ (by decide) (.ready (Prod.ext hwaited' rfl))
  have hr := searches (searches (searches hready hs₂ (by decide) (.handle hc₃)) hs₃ (by decide) (.handle hc₄)) hs₄ (by decide)
    (.handle hc₅)
  exact ⟨e, _, _, _, he, hp, Connection.state_eq_resolving.mp hs, hstep, hfound, hr, hpeer⟩

theorem tries_candidates_in_order_of_five :
    ∃ p q r, p.cycle.connection.phase = .resolving ∧ Step Script.system p q ∧
      p.cycle.world.Shows Event.collected? [.ok ([1, 2, 3, 4, 5].map testAddress)] q.cycle.world ∧
      Search Script.system q r ∧ r.cycle.connection.peer? = some (testAddress 4) ∧
      p.cycle.world.Shows Event.dialled? ([1, 2, 3, 4].map testAddress) r.cycle.world ∧
      r.cycle.connection.stats.dials = p.cycle.connection.stats.dials + 4 := by
  obtain ⟨_, p, q, r, -, -, hphase, hstep, hfound, hr, hpeer⟩ := fiveAddresses_ok
  obtain ⟨-, tried, hshows, hdials, hprefix, -, -, hpeers, -⟩ := tries_candidates_in_order hphase hstep hfound hr
  obtain rfl : tried = [1, 2, 3, 4].map testAddress := by
    have hcut : ∀ k ≤ 5, (([1, 2, 3, 4, 5].map testAddress).take k).getLast? = some (testAddress 4) → k = 4 := by decide
    have htake := List.prefix_iff_eq_take.mp hprefix
    have hlast := hpeers (testAddress 4) hpeer
    rw [htake] at hlast
    rw [htake, hcut _ hprefix.length_le hlast]
    rfl
  exact ⟨p, q, r, hphase, hstep, hfound, hr, hpeer, hshows, hdials⟩

end Engine

end IrcLink
