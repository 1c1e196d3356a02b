import IrcLink.Proofs.Engine.Timers

/-!
Every cycle waits once. What is queued is sent before the wait, if the stream can be written to; if nothing is refused
then, the wait begins with nothing left to send, and after it nothing more is sent.
-/

namespace IrcLink

namespace Event

def isFailedWait : Event → Bool
  | .call (.wait _ _) (.failed _) => true
  | _ => false

theorem isFailedWait_of_waitTimeout {e : Event} (h : e.waitTimeout? = none) : e.isFailedWait = false := by
  unfold isFailedWait
  split
  · simp [waitTimeout?] at h
  · rfl

theorem waitTimeout_of_sight {e : Event} (h : e.sight? = none) : e.waitTimeout? = none := by
  unfold waitTimeout?
  split
  · simp [sight?] at h
  · rfl

end Event

namespace World

variable {ω : Type} {w w' w'' : World ω} {before after es : List Event} {limit : Option Nat} {answer : Call.Waited}

/-- Between these two worlds there was one wait, with this limit and this answer; this came before it, and this after. -/
structure WaitsOnce (w : World ω) (before : List Event) (limit : Option Nat) (answer : Call.Waited) (after : List Event)
    (w' : World ω) : Prop where
  does : ∃ capacity, w.Does (before ++ .call (.wait capacity limit) answer :: after) w'
  before_waitless : ∀ e ∈ before, e.waitTimeout? = none
  after_waitless : ∀ e ∈ after, e.waitTimeout? = none

namespace WaitsOnce

theorem after_does (hd : w.Does es w') (hes : ∀ e ∈ es, e.waitTimeout? = none)
    (h : w'.WaitsOnce before limit answer after w'') : w.WaitsOnce (es ++ before) limit answer after w'' := by
  obtain ⟨⟨capacity, hd'⟩, hbefore, hafter⟩ := h
  refine ⟨⟨capacity, ?_⟩, List.forall_mem_append.mpr ⟨hes, hbefore⟩, hafter⟩
  rw [List.append_assoc]
  exact hd.trans hd'

theorem only (h : w.WaitsOnce before limit answer after w') (ha : ∀ code, answer ≠ .failed code) :
    w.Only (·.isFailedWait = false) w' := by
  obtain ⟨⟨capacity, hd⟩, hbefore, hafter⟩ := h
  refine ⟨_, hd, List.forall_mem_append.mpr ⟨?_, List.forall_mem_cons.mpr ⟨?_, ?_⟩⟩⟩
  · exact fun e he => Event.isFailedWait_of_waitTimeout (hbefore e he)
  · cases answer with
    | failed code => exact absurd rfl (ha code)
    | _ => rfl
  · exact fun e he => Event.isFailedWait_of_waitTimeout (hafter e he)

theorem sentOn_eq (h : w.WaitsOnce before limit answer after w') {seg : Journal} (hj : w'.journal = w.journal ++ seg)
    (s : Socket) : seg.sentOn s = (before ++ after).flatMap (·.sentOn s) := by
  obtain ⟨⟨capacity, hd⟩, -, -⟩ := h
  have hown := Does.unique ⟨seg, hj, rfl⟩ hd
  rw [← Journal.sentOn_own, hown, List.flatMap_append, List.flatMap_append, List.flatMap_cons]
  rfl

end WaitsOnce

end World

namespace Cycle

variable {ω : Type} {S : System ω} {now : Nat} {c c' : Cycle ω} {s : Socket} {peer : SocketAddress}

theorem receiveIfRoom_refused {alive anew : Bool} (h : c.receiveIfRoom S s = .ok (alive, anew, c')) :
    ∃ es, c.world.Does es c'.world ∧ (alive = false → ∃ e ∈ es, e.refuses = true) ∧
      c'.buffers.write = c.buffers.write ∧ c'.connection.flow.writeFull = c.connection.flow.writeFull := by
  unfold receiveIfRoom at h
  split at h
  · obtain ⟨rfl, -, rfl⟩ := by simpa using h
    exact ⟨[], .refl _, nofun, rfl, rfl⟩
  · split at h
    · obtain ⟨rfl, -, rfl⟩ := by simpa using h
      exact ⟨[], .refl _, nofun, rfl, rfl⟩
    · obtain ⟨⟨_, c₁⟩, hr, h⟩ := Fault.map_eq_ok.mp h
      obtain ⟨rfl, -, rfl⟩ := by simpa using h
      obtain ⟨t, ht, rfl, rfl⟩ := receive_ok hr
      obtain ⟨es, hd, -, -, hlost⟩ := Transfer.receive_stops ht
      refine ⟨es ++ [.receiveEnded t.stop], hd.trans (World.record_does S t.world rfl), ?_, rfl, ?_⟩
      · intro halive
        obtain ⟨e, hmem, hrefuses⟩ := hlost (by simpa using halive)
        exact ⟨e, List.mem_append_left _ hmem, hrefuses⟩
      · cases t.stop <;> rfl

theorem transmitIfQueued_refused (hfull : c.connection.flow.writeFull = false) {alive : Bool}
    (h : c.transmitIfQueued S s = .ok (alive, c')) :
    ∃ es, c.world.Does es c'.world ∧
      ((∀ e ∈ es, e.refuses = false) → alive = true ∧ c'.buffers.write.isEmpty = true) := by
  unfold transmitIfQueued at h
  split at h
  · rename_i hempty
    obtain ⟨rfl, rfl⟩ := by simpa using h
    exact ⟨[], .refl _, fun _ => ⟨rfl, hempty⟩⟩
  · rw [hfull] at h
    obtain ⟨t, ht, rfl, rfl⟩ := transmit_ok h
    obtain ⟨es, hd, hrefused⟩ := Transfer.transmit_refused ht
    refine ⟨es, hd, fun haccepted => ?_⟩
    have hstop : t.stop = .ring := by
      by_contra hstop
      obtain ⟨e, hmem, hrefuses⟩ := hrefused hstop
      exact absurd hrefuses (by rw [haccepted e hmem]; nofun)
    exact ⟨by rw [hstop]; rfl, (Transfer.transmit_stops ht).1 hstop⟩

theorem watch_buffers (S : System ω) (c : Cycle ω) (s : Socket) (anew : Bool) :
    (c.watch S s anew).2.buffers = c.buffers := by
  unfold watch
  dsimp only
  split
  · split <;> rfl
  · rfl

theorem sendAndWatch_flushes (hfull : c.connection.flow.writeFull = false) {anew : Bool}
    (h : c.sendAndWatch S now s anew = .ok c') :
    ∃ es, c.world.Does es c'.world ∧ ((∀ e ∈ es, e.refuses = false) → c'.buffers.write.isEmpty = true) := by
  obtain ⟨alive, c₁, ht, h⟩ := sendAndWatch_ok h
  obtain ⟨es, hd, hsent⟩ := transmitIfQueued_refused hfull ht
  have hrest : c₁.world.Goes c'.world ∧ c'.buffers = c₁.buffers := by
    have hwatch : Carries c₁.onLink c₁ (c₁.watch S s anew).2 := watch_carries c₁ s anew
    have hbuffers := watch_buffers S c₁ s anew
    obtain ⟨-, rfl⟩ | ⟨-, rfl⟩ := h
    · exact ⟨(World.abandon_hush c₁.world s).goes, rfl⟩
    · split
      · exact ⟨hwatch.goes, hbuffers⟩
      · exact ⟨hwatch.goes.trans (World.abandon_hush _ s).goes, hbuffers⟩
  obtain ⟨⟨es', hd'⟩, hbuffers⟩ := hrest
  refine ⟨es ++ es', hd.trans hd', fun haccepted => ?_⟩
  rw [hbuffers]
  exact (hsent fun e he => haccepted e (List.mem_append_left _ he)).2

theorem beforeWait_flushes (hphase : c.connection.phase = .connected s peer)
    (hfull : c.connection.flow.writeFull = false) (h : c.beforeWait S now = .ok c') :
    ∃ es, c.world.Does es c'.world ∧ ((∀ e ∈ es, e.refuses = false) → c'.buffers.write.isEmpty = true) := by
  obtain ⟨alive, anew, c₁, hr, h⟩ := beforeWait_connected hphase h
  obtain ⟨es, hd, hlost, -, hflow⟩ := receiveIfRoom_refused hr
  obtain ⟨rfl, rfl⟩ | ⟨-, h⟩ := h
  · obtain ⟨es', hd'⟩ := (World.abandon_hush (S := S) c₁.world s).goes
    obtain ⟨e, hmem, hrefuses⟩ := hlost rfl
    refine ⟨es ++ es', hd.trans hd', fun haccepted => ?_⟩
    exact absurd hrefuses (by rw [haccepted e (List.mem_append_left _ hmem)]; nofun)
  · obtain ⟨es', hd', hflushed⟩ := sendAndWatch_flushes (hflow.trans hfull) h
    exact ⟨es ++ es', hd.trans hd', fun haccepted => hflushed fun e he => haccepted e (List.mem_append_right _ he)⟩

theorem Path.waitless (h : Path S now c c') : World.Only (·.waitTimeout? = none) c.world c'.world :=
  h.only (fun _ => Event.waitTimeout_of_isWork) (fun _ => rfl) (fun _ => rfl) fun _ _ => rfl

end Cycle

namespace Engine

open IrcLink.Cycle

variable {ω : Type} {S : System ω} {now t : Nat} {c : Cycle ω} {e e' : Engine ω} {b b' : Buffers}
  {timeout : Option Nat} {r : Except WaitError Outcome}

theorem Attended.waitless {answer : Call.Waited} (h : Attended S now c answer (r, e', b')) :
    World.Only (·.waitTimeout? = none) c.world e'.world := by
  cases h with
  | failed code => exact .refl _
  | interrupted => exact (afterEvents_path S now c).waitless
  | events hall => exact (dispatchAll_path hall).waitless.trans (afterEvents_path S now _).waitless

theorem Attended.error_iff {answer : Call.Waited} (h : Attended S now c answer (r, e', b')) (f : WaitError) :
    r = .error f ↔ answer = .failed f.code := by
  cases h with
  | failed code =>
    constructor
    all_goals
      rintro ⟨⟩
      rfl
  | interrupted => exact ⟨nofun, nofun⟩
  | events hall => exact ⟨nofun, nofun⟩

theorem steps_silent {p q : Point ω} (h : Relation.ReflTransGen (Step S) p q) {C : Nat}
    (hp : p.cycle.buffers.write.Holds C []) :
    q.cycle.buffers.write.Holds C [] ∧ World.Only (·.sent = []) p.cycle.world q.cycle.world := by
  induction h with
  | refl => exact ⟨hp, .refl _⟩
  | tail _ h ih =>
    obtain ⟨hhold, honly⟩ := ih
    obtain ⟨es, m⟩ := h.carries
    obtain ⟨rest, hnil, hrest⟩ := m.write C [] hhold
    obtain ⟨hsent, rfl⟩ := List.append_eq_nil_iff.mp hnil.symm
    exact ⟨hrest, honly.trans ⟨es, m.does, List.flatMap_eq_nil_iff.mp hsent⟩⟩

theorem cycle_waits (h : e.cycle S b now (some t) = .ok (r, e', b')) :
    ∃ before limit answer after, e.world.WaitsOnce before (some limit) answer after e'.world ∧ limit ≤ t ∧
      (∀ f, r = .error f ↔ answer = .failed f.code) ∧
      ∀ s peer C q, e.connection.phase = .connected s peer → e.connection.flow.writeFull = false →
        b.write.Holds C q → (∀ x ∈ before, x.refuses = false) → (before ++ after).flatMap (·.sentOn s) = q := by
  obtain ⟨c, hc, h⟩ := Fault.bind_eq_ok.mp h
  obtain ⟨before, hbefore, hwaitless⟩ := (beforeWait_work hc).path.waitless
  obtain ⟨answer, world, hw, ha⟩ := attend_ok h
  obtain ⟨after, hafter, hwaitless'⟩ := ha.waitless
  have hafter := (World.wait_does S hw).trans hafter
  obtain ⟨u, hu, hle⟩ := waitTimeout_le c.connection now t
  rw [hu] at hafter
  have hwaits : e.world.WaitsOnce before (some (min Call.longestWait u)) answer after e'.world :=
    ⟨⟨_, hbefore.trans hafter⟩, hwaitless, hwaitless'⟩
  refine ⟨before, _, answer, after, hwaits, by omega, ha.error_iff, ?_⟩
  intro s peer C q hphase hfull hq haccepted
  obtain ⟨es, m⟩ := beforeWait_carries hc
  obtain rfl : es = before := m.does.unique hbefore
  -- what was queued was sent, for nothing is left
  obtain ⟨q', rfl, hq'⟩ := m.write C q hq
  obtain ⟨es', hd, hflushed⟩ := beforeWait_flushes hphase hfull hc
  obtain rfl : es' = es := hd.unique hbefore
  obtain rfl : q' = [] := hq'.isEmpty_iff.mp (hflushed haccepted)
  have hon : ∀ x ∈ es', x.sentOn s = x.sent := by
    intro x hx
    refine Event.sentOn_of_only fun s' hs' => ?_
    obtain ⟨peer', hphase'⟩ := m.stream x hx s' hs'
    exact (Phase.connected.inj (hphase.symm.trans hphase')).1.symm
  -- and nothing was sent after that
  obtain ⟨-, es'', hd', hsilent⟩ := steps_silent
    (Relation.ReflTransGen.mono (fun _ _ => StepAt.step) _ _ (attend_stepsAt h)) (p := .waiting now (some t) c) hq'
  obtain rfl := World.Does.unique hd' hafter
  have hnone : after.flatMap (·.sentOn s) = [] := by
    refine List.flatMap_eq_nil_iff.mpr fun x hx => Event.sentOn_of_sent s ?_
    exact hsilent x (List.mem_cons_of_mem _ hx)
  rw [List.flatMap_append, hnone, List.flatMap_congr hon]

end Engine

end IrcLink
