import IrcLink.Proofs.Engine.Batch
import IrcLink.Proofs.Engine.Wakeups

/-!
No socket is left open. The engine opens one only when it has none, and on every way away from a socket it closes it, be it a
dial that failed half-way, a candidate that is given up or a connection that is lost.
-/

namespace IrcLink

namespace Cycle

variable {ω : Type} {S : System ω} {now : Nat} {start : World ω} {c c' : Cycle ω}

/-- Of the sockets that were opened since the start, the one of the connection is open and watched, and no other. -/
def Tidy (start : World ω) (c : Cycle ω) : Prop := start.Keeps c.world (c.connection.socket?.map (·, true))

theorem Tidy.none_kept (h : Tidy start c) (hs : c.connection.socket? = none) : start.Keeps c.world none := by
  rwa [Tidy, hs] at h

theorem Tidy.kept {s : Socket} (h : Tidy start c) (hs : c.connection.socket? = some s) :
    start.Keeps c.world (some (s, true)) := by
  rwa [Tidy, hs] at h

theorem Tidy.congr (h : Tidy start c) (hphase : c'.connection.phase = c.connection.phase)
    (hw : c.world.Only (·.touches = false) c'.world) : Tidy start c' := by
  have hs : c'.connection.socket? = c.connection.socket? := by rw [Connection.socket?, hphase, Connection.socket?]
  rw [Tidy, hs]
  exact h.only hw

theorem onLookup_tidy (h : Tidy start c) (r : Resolution) : Tidy start (c.onLookup now r) := by
  have hs : (c.onLookup now r).connection.socket? = c.connection.socket? := by
    cases hphase : c.connection.phase with
    | resolving => cases r with
      | error e => simp [onLookup, hphase, failLookup, Connection.pause, Connection.socket?]
      | ok addresses => cases addresses <;>
          simp [onLookup, hphase, failLookup, setPhase, Connection.pause, Connection.socket?]
    | _ => simp [onLookup, hphase]
  rw [Tidy, hs, onLookup_world]
  exact h

theorem dialFirst_tidy (h : start.Keeps c.world none) (addresses : List SocketAddress) :
    Tidy start (c.dialFirst S now addresses) := by
  induction addresses generalizing c with
  | nil => exact h
  | cons a rest ih =>
    have hd := World.dialWatched_keeps (S := S) h c.connection.settings.noDelay a
    unfold dialFirst
    dsimp only
    split
    · rename_i s world he
      have he : c.world.dialWatched S c.connection.settings.noDelay a = (some s, world) := he
      rw [he] at hd
      exact hd
    · rename_i world he
      have he : c.world.dialWatched S c.connection.settings.noDelay a = (none, world) := he
      rw [he] at hd
      exact ih hd

theorem nextAddress_tidy (h : Tidy start c) : Tidy start (c.nextAddress S now) := by
  unfold nextAddress
  split
  · rename_i first rest hphase
    have hk : start.Keeps c.world none := h.none_kept (by rw [Connection.socket?, hphase])
    exact dialFirst_tidy hk _
  · rename_i s a rest deadline hphase
    have hk : start.Keeps c.world (some (s, true)) := h.kept (by rw [Connection.socket?, hphase])
    have ha : start.Keeps (c.world.abandon S s) none := World.abandon_keeps hk
    exact dialFirst_tidy (c := { c with world := c.world.abandon S s }) ha _
  · exact h

theorem Works.tidy (h : Works S now c c') (hc : Tidy start c) : Tidy start c' := by
  cases h with
  | aside h => exact hc.congr rfl (h.only.mono fun _ => Event.touches_of_isAside)
  | receives hphase h =>
    obtain ⟨t, ht, -, rfl⟩ := receive_ok h
    have hr := (Transfer.receive_calls ht).only.mono fun _ => Event.touches_of_stream
    exact hc.congr rfl (hr.trans (.of_does (World.record_does S _ rfl) rfl))
  | transmits hphase h =>
    obtain ⟨t, ht, -, rfl⟩ := transmit_ok h
    exact hc.congr rfl ((Transfer.transmit_calls ht).only.mono fun _ => Event.touches_of_stream)
  | rearms => exact hc.congr rfl (.refl _)
  | mayWrite => exact hc.congr rfl (.refl _)
  | @watches s peer world hphase h =>
    have hk : start.Keeps c.world (some (s, true)) := hc.kept (by rw [Connection.socket?, hphase])
    have hw : start.Keeps (c.world.call S (.reregister s socketToken _)).2 (some (s, true)) :=
      hk.call fun hj hx => hj.watches (.inr (by rw [hx, h]))
    rw [h] at hw
    simpa [Tidy, Connection.socket?, hphase] using hw
  | @loses s peer hphase =>
    have hk : start.Keeps c.world (some (s, true)) := hc.kept (by rw [Connection.socket?, hphase])
    have ha : start.Keeps (c.world.abandon S s) none := World.abandon_keeps hk
    exact ha
  | @connects s a rest deadline world hphase h =>
    have hk : start.Keeps c.world (some (s, true)) := hc.kept (by rw [Connection.socket?, hphase])
    have hw : start.Keeps (c.world.call S (.reregister s socketToken .read)).2 (some (s, true)) :=
      hk.call fun hj hx => hj.watches (.inr (by rw [hx, h]))
    rw [h] at hw
    exact hw
  | dials => exact nextAddress_tidy hc

theorem Happens.tidy (h : Happens S now c c') (hc : Tidy start c) : Tidy start c' := by
  cases h with
  | works h => exact h.tidy hc
  | looks => exact hc.congr rfl (.of_does (World.takeStop_does S c.world) rfl)
  | @collects r world h =>
    have hv : c.world.Via S (·.touches = false) (c.world.collect S).2 := World.collect_via S c.world fun _ => rfl
    rw [h] at hv
    have hw : Tidy start { c with world } := hc.congr rfl hv.only
    exact onLookup_tidy hw r
  | @asks retryAt hphase hdue =>
    have hk : start.Keeps c.world none := hc.none_kept (by rw [Connection.socket?, hphase])
    obtain ⟨l, hl⟩ := afterEvents_due (S := S) hphase hdue
    have hv : c.world.Via S (·.touches = false) (World.startLookup S l c.world).2 :=
      World.startLookup_via S c.world l fun _ => rfl
    obtain ⟨world, h, hc'⟩ | ⟨e, world, h, hc'⟩ := hl
    all_goals
      rw [h] at hv
      rw [hc']
      exact (hk.only hv.only).only (.of_does (World.record_does S world rfl) rfl)

end Cycle

theorem Connection.socket_isSome_iff {c : Connection} :
    c.socket?.isSome ↔ c.state = .connecting ∨ c.state = .connected := by
  unfold socket? state
  cases c.phase <;> simp

namespace Engine

open IrcLink.Cycle

variable {ω : Type} {S : System ω} {start : World ω}

theorem Step.tidy {p q : Point ω} (h : Step S p q) (hp : p.cycle.Tidy start) : q.cycle.Tidy start := by
  obtain ⟨now, c, hc, hconnection, hworld⟩ | ⟨now, timeout, c, waited, rfl, hwait, hconnection⟩ := h.cases
  · have ht : c.Tidy start := hc.keeps (fun hh => hh.tidy) hp
    rw [Tidy, hconnection, hworld]
    exact ht
  · exact hp.congr (by rw [hconnection]; rfl) (.of_does (World.wait_does S hwait) rfl)

theorem Visited.tidy {first : Engine ω} (hf : ∀ b, (Point.idle first b).cycle.Tidy start) {p : Point ω}
    (hp : Visited S first p) : p.cycle.Tidy start := by
  induction hp with
  | start => exact hf _
  | step _ h ih => exact h.tidy ih
  | use _ _ ih => exact ih

theorem shutDown_keeps {c : Connection} {w : World ω} (h : start.Keeps w (c.socket?.map (·, true))) :
    start.Keeps (shutDown S c w) none := by
  unfold shutDown
  split
  · rename_i hs
    rwa [hs] at h
  · rename_i s hs
    rw [hs] at h
    exact World.close_keeps h

theorem run_leaks_no_socket {settings : LinkSettings} {now : Nat} {w : World ω} {first : Engine ω}
    (hfirst : create S settings now w = .ok first) {p : Point ω} (hp : Visited S first p) :
    (∃ seg : Journal, p.cycle.world.journal = first.world.journal ++ seg ∧
      -- there was never more than one socket at a time
      (∀ before : Journal, before <+: seg → before.openSockets.length ≤ 1) ∧
      -- and here there is one exactly while connecting or connected
      seg.openSockets = p.cycle.connection.socket?.toList ∧
      seg.opened.length = seg.closed.length +
        (if p.cycle.connection.state = .connecting ∨ p.cycle.connection.state = .connected then 1 else 0) ∧
      -- which is watched under the token of sockets, and no other is watched at all
      ∀ s, (seg.watched? s).map Watch.token =
        if p.cycle.connection.socket? = some s then some socketToken else none) ∧
    -- none is left once the engine is gone
    ∃ seg : Journal, (shutDown S p.cycle.connection p.cycle.world).journal = first.world.journal ++ seg ∧
      seg.openSockets = [] ∧ seg.opened.length = seg.closed.length := by
  have hstart (b : Buffers) : (Point.idle first b).cycle.Tidy first.world := by
    have hs : (Point.idle first b).cycle.connection.socket? = none := by
      change first.connection.socket? = none
      rw [create_connection hfirst]
      rfl
    rw [Tidy, hs]
    exact .refl first.world
  have ht := hp.tidy hstart
  constructor
  · obtain ⟨seg, hj, hc⟩ := ht
    refine ⟨seg, hj, fun before hb => hc.length_openSockets_le hb, ?_, ?_, ?_⟩
    · rw [hc.openSockets_eq]
      cases p.cycle.connection.socket? <;> rfl
    · rw [hc.opened_length]
      simp only [← Connection.socket_isSome_iff]
      cases p.cycle.connection.socket? <;> rfl
    · intro s
      rw [hc.watched_eq]
      cases p.cycle.connection.socket? <;> simp
  · obtain ⟨seg, hj, hc⟩ := shutDown_keeps (S := S) ht
    exact ⟨seg, hj, hc.openSockets_eq, hc.opened_length⟩

/-- Seven addresses, of which the first six fail: no socket, one that would block, no option, a connect that is over at once, a
socket that cannot be watched, and one that meets an error after it was dialled. -/
def sevenAddresses : Script where
  upcoming := [{ create := .error "EMFILE" }, { nonBlocking := .error "EBADF" }, { noDelay := .error "EINVAL" },
    { connect := .atOnce }, { register := [.error "ENOSPC"] }, { errors := [.ok (some "ECONNREFUSED")] }, {}]
  turns := [{}, { lookup := some (some ([1, 2, 3, 4, 5, 6, 7].map testAddress)) }, { result := .events [ready] }]

theorem run_leaks_no_socket_of_seven_addresses :
    ∃ first p seg, create Script.system { host := "irc.example.net", port := 6667 } 0 { os := sevenAddresses } = .ok first ∧
      Visited Script.system first p ∧ p.cycle.connection.phase = .connecting 5 (testAddress 7) [] 5000 ∧
      p.cycle.world.journal = first.world.journal ++ seg ∧ seg.opened = [0, 1, 2, 3, 4, 5] ∧ seg.closed.length = 5 ∧
      seg.openSockets = [5] ∧ ∀ s, (seg.watched? s).map Watch.token = if s = 5 then some socketToken else none := by
  have hS := Script.system_bounded
  obtain ⟨e, he⟩ : ∃ e, create Script.system { host := "irc.example.net", port := 6667 } 0 { os := sevenAddresses } = .ok e :=
    ⟨_, rfl⟩
  obtain ⟨b, hb⟩ : ∃ b, Buffers.create 4 = .ok b := ⟨_, rfl⟩
  have heval : (do
      let (_, e₁, b) ← e.cycle Script.system b 0 none
      let (_, e₂, b) ← e₁.cycle Script.system b 0 none
      let (_, e₃, _) ← e₂.cycle Script.system b 0 none
      return (e₃.connection.phase, Journal.opened (e₃.world.journal.drop e.world.journal.length))) =
        .ok (.connecting 5 (testAddress 7) [] 5000, [0, 1, 2, 3, 4, 5]) := by
    obtain rfl := Except.ok.inj he
    obtain rfl := Except.ok.inj hb
    decide +kernel
  obtain ⟨_, e₁, b₁, h₁⟩ := cycle_isOk hS e b 0 none
  obtain ⟨_, e₂, b₂, h₂⟩ := cycle_isOk hS e₁ b₁ 0 none
  obtain ⟨_, e₃, b₃, h₃⟩ := cycle_isOk hS e₂ b₂ 0 none
  simp only [h₁, h₂, h₃, bind, Except.bind, pure, Except.pure, Except.ok.injEq, Prod.mk.injEq] at heval
  obtain ⟨hphase, hopened⟩ := heval
  obtain ⟨_, hread⟩ := (counted_of_create he hb).read
  have hp : Visited Script.system e (.idle e₃ b₃) :=
    (((Visited.start hread.wellFormed).steps (cycle_steps h₁)).steps (cycle_steps h₂)).steps (cycle_steps h₃)
  obtain ⟨⟨seg, hj, -, hopen, hcount, hwatched⟩, -⟩ := run_leaks_no_socket he hp
  have hseg : e₃.world.journal.drop e.world.journal.length = seg := by
    have hj : e₃.world.journal = e.world.journal ++ seg := hj
    rw [hj, List.drop_left]
  have hsocket : (Point.idle e₃ b₃).cycle.connection.socket? = some 5 := by
    change e₃.connection.socket? = some 5
    rw [Connection.socket?, hphase]
  have hstate : (Point.idle e₃ b₃).cycle.connection.state = .connecting := by
    change e₃.connection.state = .connecting
    rw [Connection.state, hphase]
  rw [hseg] at hopened
  rw [hsocket] at hopen
  rw [hopened, if_pos (.inl hstate)] at hcount
  refine ⟨e, _, seg, he, hp, hphase, hj, hopened, Nat.succ.inj hcount.symm, hopen, ?_⟩
  intro s
  rw [hwatched, hsocket]
  simp only [Option.some.injEq, eq_comm]

end Engine

end IrcLink
