import IrcLink.Proofs.Session.Framing

/-!
The handlers as one list. A dispatcher keeps them grouped by their commands, but whatever is registered and dispatched in
between, it answers like a list of all of them in the order in which they came: a message goes down the list, and each handler
of its command takes the context over from the one before. In a session the list begins with the handlers it was made with.
-/

namespace IrcLink

open Bytes

variable {σ γ υ : Type}

theorem lookup_cons_ite {β : Type} (command c : Bytes) (b : β) (all : List (Bytes × β)) :
    List.lookup command ((c, b) :: all) = if command = c then some b else List.lookup command all := by
  rw [List.lookup_cons]
  by_cases h : command = c
  · rw [if_pos h, h, beq_self_eq_true]
  · rw [if_neg h, beq_false_of_ne h]

theorem Handler.runAll_length (hs : List (Handler σ γ)) (ctx : γ) (m : Message) :
    (Handler.runAll hs ctx m).1.length = hs.length := by
  induction hs generalizing ctx with
  | nil => rfl
  | cons h hs ih =>
    rw [Handler.runAll, List.length_cons]
    exact congrArg (· + 1) (ih (h.run ctx m).2)

abbrev Roll (σ γ : Type) := List (Bytes × Handler σ γ)

namespace Roll

def handlersOf (r : Roll σ γ) (command : Bytes) : List (Handler σ γ) := (r.filter (·.1 = command)).map (·.2)

/-- Goes down the list with the context, and counts the handlers that ran. The others stay as they are. -/
def dispatch : Roll σ γ → γ → Message → Roll σ γ × γ × Nat
  | [], ctx, _ => ([], ctx, 0)
  | (c, h) :: r, ctx, m =>
    if c = m.command then
      let (h, ctx) := h.run ctx m
      let (r, ctx, n) := dispatch r ctx m
      ((c, h) :: r, ctx, n + 1)
    else
      let (r, ctx, n) := dispatch r ctx m
      ((c, h) :: r, ctx, n)

def staff (r : Roll σ γ) : List (Bytes × (σ → γ → Message → σ × γ)) := r.map fun p => (p.1, p.2.step)

variable (r r' : Roll σ γ) (ctx : γ) (m : Message)

theorem handlersOf_append (c : Bytes) : handlersOf (r ++ r') c = handlersOf r c ++ handlersOf r' c := by
  rw [handlersOf, List.filter_append, List.map_append]
  rfl

theorem handlersOf_cons (c c' : Bytes) (h : Handler σ γ) :
    handlersOf ((c, h) :: r) c' = if c = c' then h :: handlersOf r c' else handlersOf r c' := by
  rw [handlersOf, List.filter_cons]
  by_cases hc : c = c' <;> simp [hc, handlersOf]

theorem handlersOf_swap {command command' : Bytes} (hne : command ≠ command') (h h' : Handler σ γ) (c : Bytes) :
    handlersOf (r ++ [(command, h)] ++ [(command', h')]) c = handlersOf (r ++ [(command', h')] ++ [(command, h)]) c := by
  have hnil : handlersOf ([] : Roll σ γ) c = [] := rfl
  rw [handlersOf_append, handlersOf_append, handlersOf_append, handlersOf_append, handlersOf_cons, handlersOf_cons, hnil]
  by_cases hc : command = c
  · have hc' : ¬command' = c := fun h => hne (hc.trans h.symm)
    rw [if_neg hc', List.append_nil, List.append_nil]
  · rw [if_neg hc, List.append_nil, List.append_nil]

theorem dispatch_append :
    dispatch (r ++ r') ctx m =
      ((dispatch r ctx m).1 ++ (dispatch r' (dispatch r ctx m).2.1 m).1, (dispatch r' (dispatch r ctx m).2.1 m).2.1,
        (dispatch r ctx m).2.2 + (dispatch r' (dispatch r ctx m).2.1 m).2.2) := by
  induction r generalizing ctx with
  | nil => simp only [List.nil_append, dispatch, Nat.zero_add]
  | cons p r ih =>
    obtain ⟨c, h⟩ := p
    rw [List.cons_append, dispatch, dispatch]
    split
    · simp only [ih, List.cons_append, Nat.add_right_comm]
    · simp only [ih, List.cons_append]

theorem dispatch_eq_runAll :
    (dispatch r ctx m).2 = ((Handler.runAll (handlersOf r m.command) ctx m).2, (handlersOf r m.command).length) ∧
      ∀ c, handlersOf (dispatch r ctx m).1 c =
        if c = m.command then (Handler.runAll (handlersOf r m.command) ctx m).1 else handlersOf r c := by
  induction r generalizing ctx with
  | nil => exact ⟨rfl, fun c => by simp [dispatch, handlersOf, Handler.runAll]⟩
  | cons p r ih =>
    obtain ⟨c, h⟩ := p
    rw [dispatch, handlersOf_cons]
    by_cases hc : c = m.command
    · obtain ⟨hanswer, hkept⟩ := ih (h.run ctx m).2
      rw [if_pos hc, if_pos hc]
      refine ⟨?_, fun c' => ?_⟩
      · simp only [Handler.runAll, List.length_cons, hanswer]
      · simp only [handlersOf_cons, hkept, Handler.runAll, hc, eq_comm]
        split <;> rfl
    · obtain ⟨hanswer, hkept⟩ := ih ctx
      rw [if_neg hc, if_neg hc]
      refine ⟨hanswer, fun c' => ?_⟩
      simp only [handlersOf_cons, hkept]
      by_cases hc' : c' = m.command
      · rw [if_pos hc', if_neg (hc' ▸ hc), if_pos hc']
      · rw [if_neg hc', if_neg hc']

theorem staff_dispatch : staff (dispatch r ctx m).1 = staff r := by
  induction r generalizing ctx with
  | nil => rfl
  | cons p r ih =>
    obtain ⟨c, h⟩ := p
    rw [dispatch]
    split
    · exact congrArg ((c, h.step) :: ·) (ih (h.run ctx m).2)
    · exact congrArg ((c, h.step) :: ·) (ih ctx)

theorem dispatch_count : (dispatch r ctx m).2.2 = (r.filter (·.1 = m.command)).length := by
  rw [(dispatch_eq_runAll r ctx m).1, handlersOf, List.length_map]

theorem dispatch_keeps {i : Nat} {c : Bytes} {h : Handler σ γ} (hi : r[i]? = some (c, h)) (hc : c ≠ m.command) :
    (dispatch r ctx m).1[i]? = some (c, h) := by
  induction r generalizing ctx i with
  | nil => simp at hi
  | cons p r ih =>
    obtain ⟨c', h'⟩ := p
    rw [dispatch]
    cases i with
    | zero =>
      obtain ⟨rfl, rfl⟩ := by simpa using hi
      rw [if_neg hc]
      rfl
    | succ i =>
      rw [List.getElem?_cons_succ] at hi
      split
      · exact ih (h'.run ctx m).2 hi
      · exact ih ctx hi

theorem dispatch_eq_self (hr : ∀ p ∈ r, ∀ ctx, (p.2.run ctx m).1 = p.2) : (dispatch r ctx m).1 = r := by
  induction r generalizing ctx with
  | nil => rfl
  | cons p r ih =>
    obtain ⟨c, h⟩ := p
    obtain ⟨hh, hrest⟩ := List.forall_mem_cons.mp hr
    rw [dispatch]
    split
    · simp only [ih _ hrest, hh]
    · simp only [ih _ hrest]

end Roll

namespace Dispatcher

theorem lookup_setHandlers (command c : Bytes) (hs : List (Handler σ γ)) (all : List (Bytes × List (Handler σ γ))) :
    (setHandlers command hs all).lookup c = if c = command then some hs else all.lookup c := by
  induction all with
  | nil => rw [setHandlers, lookup_cons_ite]
  | cons p all ih =>
    obtain ⟨c', old⟩ := p
    rw [setHandlers]
    by_cases hc' : c' = command
    · subst hc'
      rw [if_pos rfl, lookup_cons_ite, lookup_cons_ite]
      split <;> rfl
    · rw [if_neg hc', lookup_cons_ite, lookup_cons_ite, ih]
      by_cases hc : c = c'
      · rw [if_pos hc, if_pos hc, if_neg (hc ▸ hc')]
      · rw [if_neg hc, if_neg hc]

theorem handlersOf_register (d : Dispatcher σ γ) (command c : Bytes) (h : Handler σ γ) :
    (d.register command h).handlersOf c = if c = command then d.handlersOf c ++ [h] else d.handlersOf c := by
  rw [handlersOf, register, lookup_setHandlers]
  by_cases hc : c = command
  · rw [if_pos hc, if_pos hc, hc, Option.getD_some]
  · rw [if_neg hc, if_neg hc, handlersOf]

theorem dispatch_eq_runAll (d : Dispatcher σ γ) (ctx : γ) (m : Message) :
    (d.dispatch ctx m).2 = ((Handler.runAll (d.handlersOf m.command) ctx m).2, (d.handlersOf m.command).length) ∧
      ∀ c, (d.dispatch ctx m).1.handlersOf c =
        if c = m.command then (Handler.runAll (d.handlersOf m.command) ctx m).1 else d.handlersOf c := by
  rw [dispatch]
  cases hl : d.handlers.lookup m.command with
  | none =>
    have hnone : d.handlersOf m.command = [] := by rw [handlersOf, hl, Option.getD_none]
    refine ⟨by rw [hnone]; rfl, fun c => ?_⟩
    change d.handlersOf c = _
    by_cases hc : c = m.command
    · rw [if_pos hc, hc, hnone]
      rfl
    · rw [if_neg hc]
  | some hs =>
    have hsome : d.handlersOf m.command = hs := by rw [handlersOf, hl, Option.getD_some]
    dsimp only
    rw [hsome, Handler.runAll_length]
    refine ⟨rfl, fun c => ?_⟩
    rw [handlersOf, lookup_setHandlers]
    by_cases hc : c = m.command
    · rw [if_pos hc, if_pos hc, Option.getD_some]
    · rw [if_neg hc, if_neg hc, handlersOf]

/-- Of every command, the same handlers in the same states. -/
def Lists (d : Dispatcher σ γ) (r : Roll σ γ) : Prop := ∀ c, d.handlersOf c = r.handlersOf c

namespace Lists

variable {d : Dispatcher σ γ} {r : Roll σ γ}

theorem nil : Lists ({} : Dispatcher σ γ) [] := fun _ => rfl

theorem congr {r' : Roll σ γ} (h : d.Lists r) (hr : ∀ c, r'.handlersOf c = r.handlersOf c) : d.Lists r' :=
  fun c => (h c).trans (hr c).symm

theorem register (h : d.Lists r) (command : Bytes) (handler : Handler σ γ) :
    (d.register command handler).Lists (r ++ [(command, handler)]) := by
  intro c
  rw [handlersOf_register, h c, Roll.handlersOf_append, Roll.handlersOf_cons]
  by_cases hc : c = command
  · rw [if_pos hc, if_pos hc.symm]
    rfl
  · rw [if_neg hc, if_neg (Ne.symm hc)]
    exact (List.append_nil _).symm

theorem dispatch (h : d.Lists r) (ctx : γ) (m : Message) :
    (d.dispatch ctx m).2 = (r.dispatch ctx m).2 ∧ (d.dispatch ctx m).1.Lists (r.dispatch ctx m).1 := by
  obtain ⟨hd, hkept⟩ := d.dispatch_eq_runAll ctx m
  obtain ⟨hr, hkept'⟩ := r.dispatch_eq_runAll ctx m
  rw [h m.command] at hd hkept
  refine ⟨hd.trans hr.symm, fun c => ?_⟩
  rw [hkept, hkept', h c]

end Lists

end Dispatcher

inductive DispatcherCall (σ γ : Type) where
  | register (command : Bytes) (h : Handler σ γ)
  | dispatch (ctx : γ) (m : Message)

namespace DispatcherCall

def staff : List (DispatcherCall σ γ) → List (Bytes × (σ → γ → Message → σ × γ))
  | [] => []
  | register command h :: calls => (command, h.step) :: staff calls
  | dispatch _ _ :: calls => staff calls

end DispatcherCall

def Dispatcher.run (d : Dispatcher σ γ) : List (DispatcherCall σ γ) → Dispatcher σ γ × List (γ × Nat)
  | [] => (d, [])
  | .register command h :: calls => (d.register command h).run calls
  | .dispatch ctx m :: calls =>
    let (d, answer) := d.dispatch ctx m
    let (d, answers) := d.run calls
    (d, answer :: answers)

def Roll.run (r : Roll σ γ) : List (DispatcherCall σ γ) → Roll σ γ × List (γ × Nat)
  | [] => (r, [])
  | .register command h :: calls => Roll.run (r ++ [(command, h)]) calls
  | .dispatch ctx m :: calls =>
    let (r, answer) := r.dispatch ctx m
    let (r, answers) := r.run calls
    (r, answer :: answers)

theorem Dispatcher.Lists.run {d : Dispatcher σ γ} {r : Roll σ γ} (h : d.Lists r) (calls : List (DispatcherCall σ γ)) :
    (d.run calls).2 = (r.run calls).2 ∧ (d.run calls).1.Lists (r.run calls).1 := by
  induction calls generalizing d r with
  | nil => exact ⟨rfl, h⟩
  | cons call calls ih =>
    cases call with
    | register command handler => exact ih (h.register command handler)
    | dispatch ctx m =>
      obtain ⟨hanswer, hd⟩ := h.dispatch ctx m
      obtain ⟨hanswers, hlast⟩ := ih hd
      refine ⟨?_, hlast⟩
      rw [Dispatcher.run, Roll.run]
      dsimp only
      rw [hanswer, hanswers]

theorem Dispatcher.run_append (d : Dispatcher σ γ) (before after : List (DispatcherCall σ γ)) :
    (d.run (before ++ after)).2 = (d.run before).2 ++ ((d.run before).1.run after).2 := by
  induction before generalizing d with
  | nil => rfl
  | cons call before ih =>
    cases call with
    | register command h => exact ih (d.register command h)
    | dispatch ctx m => exact congrArg ((d.dispatch ctx m).2 :: ·) (ih (d.dispatch ctx m).1)

theorem Dispatcher.register_comm {command command' : Bytes} (hne : command ≠ command') (h h' : Handler σ γ)
    (before after : List (DispatcherCall σ γ)) :
    (({} : Dispatcher σ γ).run (before ++ .register command h :: .register command' h' :: after)).2 =
      (({} : Dispatcher σ γ).run (before ++ .register command' h' :: .register command h :: after)).2 := by
  obtain ⟨-, hd⟩ := (Lists.nil : ({} : Dispatcher σ γ).Lists []).run before
  have hone := (hd.register command h).register command' h'
  have hother := (hd.register command' h').register command h
  have hboth := hother.congr (Roll.handlersOf_swap _ hne h h')
  rw [run_append, run_append]
  exact congrArg _ ((hone.run after).1.trans (hboth.run after).1.symm)

theorem Roll.staff_run (r : Roll σ γ) (calls : List (DispatcherCall σ γ)) :
    staff (r.run calls).1 = staff r ++ DispatcherCall.staff calls := by
  induction calls generalizing r with
  | nil => exact (List.append_nil _).symm
  | cons call calls ih =>
    cases call with
    | register command h =>
      refine (ih (r ++ [(command, h)])).trans ?_
      rw [staff, List.map_append, List.append_assoc]
      rfl
    | dispatch ctx m =>
      refine (ih (r.dispatch ctx m).1).trans ?_
      rw [staff_dispatch]
      rfl

namespace Session

def defaults (σ υ : Type) [Inhabited σ] : Roll σ (Context υ) :=
  [(.ofText "PING", .stateless Context.onPing), (.ofText "004", .stateless Context.onRegistered),
    (.ofText "433", .stateless Context.onNickInUse), (.ofText "ERROR", .stateless Context.onError)]

variable [Inhabited σ] {config : Config} {user : υ}

theorem defaults_dispatch (ctx : Context υ) (m : Message) : ((defaults σ υ).dispatch ctx m).1 = defaults σ υ := by
  refine Roll.dispatch_eq_self _ _ _ fun p hp ctx => ?_
  simp only [defaults, List.mem_cons, List.not_mem_nil, or_false] at hp
  obtain rfl | rfl | rfl | rfl := hp <;> rfl

theorem create_lists : (create config user : Session σ υ).dispatcher.Lists (defaults σ υ) :=
  ((((Dispatcher.Lists.nil.register _ _).register _ _).register _ _).register _ _)

/-- A session, and the handlers that were added to it, in the states to which the messages have brought them. -/
inductive Enlists (config : Config) (user : υ) : Roll σ (Context υ) → Session σ υ → Prop
  | created : Enlists config user [] (create config user)
  | registered {added : Roll σ (Context υ)} {s : Session σ υ} (h : Enlists config user added s) (command : Bytes)
      (handler : Handler σ (Context υ)) :
      Enlists config user (added ++ [(command, handler)]) (s.register command handler)
  | dispatched {added : Roll σ (Context υ)} {s : Session σ υ} (h : Enlists config user added s) (m : Message) :
      Enlists config user (added.dispatch ((defaults σ υ).dispatch s.ctx m).2.1 m).1 (s.dispatch m)
  | aside {added : Roll σ (Context υ)} {s t : Session σ υ} (h : Enlists config user added s)
      (ht : t.dispatcher = s.dispatcher) : Enlists config user added t

namespace Enlists

variable {added : Roll σ (Context υ)} {s t : Session σ υ}

theorem lists (h : Enlists config user added s) : s.dispatcher.Lists (defaults σ υ ++ added) := by
  induction h with
  | created => exact create_lists
  | registered _ command handler ih =>
    have hd := ih.register command handler
    rwa [List.append_assoc] at hd
  | @dispatched added s _ m ih =>
    have hd := (ih.dispatch s.ctx m).2
    rwa [Roll.dispatch_append, defaults_dispatch] at hd
  | aside _ ht ih =>
    rw [ht]
    exact ih

theorem dispatch_ctx (h : Enlists config user added s) (m : Message) :
    (s.dispatch m).ctx = (added.dispatch ((defaults σ υ).dispatch s.ctx m).2.1 m).2.1 := by
  have hd := (h.lists.dispatch s.ctx m).1
  rw [Roll.dispatch_append] at hd
  change (s.dispatcher.dispatch s.ctx m).2.1 = _
  rw [hd]

theorem heard {ms : List Message} (h : Enlists config user added s) (ht : Heard s ms t) :
    ∃ added', Enlists config user added' t ∧ added'.staff = added.staff := by
  induction ht with
  | nothing => exact ⟨added, h, rfl⟩
  | dispatched _ m ih =>
    obtain ⟨added', h', hstaff⟩ := ih
    exact ⟨_, h'.dispatched m, (Roll.staff_dispatch _ _ _).trans hstaff⟩
  | aside _ _ _ _ _ ih =>
    obtain ⟨added', h', hstaff⟩ := ih
    exact ⟨added', h'.aside rfl, hstaff⟩

end Enlists

theorem dispatcher_is_one_list :
    -- whatever the calls, the answers are those of the list, and the list is of what was registered
    (∀ calls : List (DispatcherCall σ γ),
      (({} : Dispatcher σ γ).run calls).2 = (Roll.run [] calls).2 ∧
      (({} : Dispatcher σ γ).run calls).1.Lists (Roll.run [] calls).1 ∧
      (Roll.run [] calls).1.staff = DispatcherCall.staff calls) ∧
    -- the handlers of the command are counted, and all others stay as they are
    (∀ (r : Roll σ γ) (ctx : γ) (m : Message),
      (r.dispatch ctx m).2.2 = (r.filter (·.1 = m.command)).length ∧ (r.dispatch ctx m).1.staff = r.staff ∧
      ∀ (i : Nat) (c : Bytes) (h : Handler σ γ), r[i]? = some (c, h) → c ≠ m.command →
        (r.dispatch ctx m).1[i]? = some (c, h)) ∧
    -- of two commands either may be registered first
    (∀ (command command' : Bytes) (h h' : Handler σ γ) (before after : List (DispatcherCall σ γ)), command ≠ command' →
      (({} : Dispatcher σ γ).run (before ++ .register command h :: .register command' h' :: after)).2 =
        (({} : Dispatcher σ γ).run (before ++ .register command' h' :: .register command h :: after)).2) ∧
    -- in a session the default handlers come before all that were added
    ∀ (config : Config) (user : υ) (added : Roll σ (Context υ)) (s : Session σ υ), Enlists config user added s →
      s.dispatcher.Lists (defaults σ υ ++ added) ∧
      (∀ m, (s.dispatch m).ctx = (added.dispatch ((defaults σ υ).dispatch s.ctx m).2.1 m).2.1) ∧
      ∀ (t : Session σ υ) (b b' : Buffers) (ms : List Message), s.process b = .ok (t, b', ms) →
        ∃ added', Enlists config user added' t ∧ added'.staff = added.staff := by
  refine ⟨fun calls => ?_, fun r ctx m => ?_, fun _ _ h h' before after hne => ?_, fun config user added s hs => ?_⟩
  · obtain ⟨hanswers, hd⟩ := Dispatcher.Lists.nil.run calls
    exact ⟨hanswers, hd, Roll.staff_run [] calls⟩
  · exact ⟨r.dispatch_count ctx m, r.staff_dispatch ctx m, fun _ _ _ => r.dispatch_keeps ctx m⟩
  · exact Dispatcher.register_comm hne h h' before after
  · exact ⟨hs.lists, hs.dispatch_ctx, fun t b b' ms hp => hs.heard (process_heard hp)⟩

def tally (mark : Nat) : Handler Nat (List (Nat × Nat)) := ⟨0, fun n seen _ => (n + 1, seen ++ [(mark, n)])⟩

def vain : Handler Nat (Context Unit) := ⟨0, fun n ctx _ => (n + 1, ctx.send (.nick ("bot".pushn '_' n)))⟩

theorem dispatcher_is_one_list_of_tallies :
    let ping : Message := ⟨none, ofText "PING", ofText "x"⟩
    let pong : Message := ⟨none, ofText "PONG", ofText "x"⟩
    let config : Config := ⟨⟨"host", 6667⟩, ⟨["nick"], "name", "login"⟩, [], {}, {}⟩
    (({} : Dispatcher Nat (List (Nat × Nat))).run
        ([.register ping.command (tally 1), .dispatch [] ping] ++ .register pong.command (tally 2) ::
          .register ping.command (tally 3) :: [.dispatch [] ping, .dispatch [] pong, .dispatch [] ⟨none, [], []⟩])).2 =
      [([(1, 0)], 1), ([(1, 1), (3, 0)], 2), ([(2, 0)], 1), ([], 0)] ∧
    pong.command ≠ ping.command ∧
    ∃ s : Session Nat Unit, Enlists config () [(ping.command, vain)] s ∧
      (s.dispatch ping).ctx.outbox = [.pong (ofText "x"), .nick "bot"] := by
  intro ping pong config
  obtain ⟨hlist, -, hcomm, hsession⟩ := @dispatcher_is_one_list Nat (List (Nat × Nat)) Unit _
  have hne : pong.command ≠ ping.command := by decide
  have hs : Enlists config () [(ping.command, vain)] _ := Enlists.created.registered ping.command vain
  refine ⟨?_, hne, _, hs, ?_⟩
  · rw [hcomm _ _ _ _ _ _ hne, (hlist _).1]
    rfl
  · rw [(hsession _ _ _ _ hs).2.1]
    rfl

end Session

end IrcLink
