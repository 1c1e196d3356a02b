import IrcLink.Proofs.Ring.Alike
import IrcLink.Proofs.Session.Framing

/-!
What a session says depends on nothing but itself and what it is told: from rings that nobody can tell apart it makes the
same session, and leaves such rings. The handlers of the program have no memory, so all that a conversation changes is
what `Session.reset` sets back.
-/

namespace IrcLink

namespace Session

section

variable {σ υ : Type} {s t : Session σ υ} {b b' : Buffers} {ring ring' read write write' : Ring} {ms : List Message}

theorem processSpan_alike_none (ha : ring.Alike ring') (h : s.processSpan ring = .ok none) :
    s.processSpan ring' = .ok none := by
  by_cases hs : ring.readSpan = []
  · rw [processSpan, ← ha.readSpan_eq]
    exact if_pos hs
  · simp only [processSpan] at h
    rw [if_neg hs] at h
    obtain ⟨_, -, h⟩ := Fault.bind_eq_ok.mp h
    obtain ⟨_, -, h⟩ := Fault.bind_eq_ok.mp h
    simp [pure, Except.pure] at h

theorem processSpan_alike (ha : ring.Alike ring') (h : s.processSpan ring = .ok (some (t, read, ms))) :
    ∃ read', s.processSpan ring' = .ok (some (t, read', ms)) ∧ read.Alike read' := by
  have hl : ring.readSpan.length ≤ ring.readSpanLength := Nat.le_of_eq (Ring.readSpan_length ring)
  simp only [processSpan] at h
  split at h
  · simp at h
  · rename_i hne
    obtain ⟨r, hr, h⟩ := Fault.bind_eq_ok.mp h
    obtain ⟨⟨u, more⟩, hs, h⟩ := Fault.bind_eq_ok.mp h
    obtain ⟨rfl, rfl, rfl⟩ := by simpa [pure, Except.pure] using h
    rw [Ring.consume_eq_ok hl] at hr
    obtain rfl := Except.ok.inj hr
    refine ⟨ring'.advanceHead ring.readSpan.length, ?_, ha.advanceHead hl⟩
    rw [processSpan, ← ha.readSpan_eq]
    dsimp only
    rw [if_neg hne, Ring.consume_eq_ok (ha.readSpanLength_eq ▸ hl)]
    dsimp only [bind, Except.bind]
    rw [hs]
    rfl

theorem processAll_alike (ha : ring.Alike ring') (h : s.processAll ring = .ok (t, read, ms)) :
    ∃ read', s.processAll ring' = .ok (t, read', ms) ∧ read.Alike read' := by
  induction s, ring using processAll.induct generalizing ring' t read ms with
  | case1 s ring f hs => rw [processAll, hs] at h; simp at h
  | case2 s ring hs =>
    rw [processAll, hs] at h
    obtain ⟨rfl, rfl, rfl⟩ := by simpa using h
    exact ⟨ring', by rw [processAll, processSpan_alike_none ha hs], ha⟩
  | case3 s ring u ring₁ first hs ih =>
    rw [processAll, hs] at h
    obtain ⟨⟨last, r, more⟩, hall, hp⟩ := Fault.map_eq_ok.mp h
    obtain ⟨rfl, rfl, rfl⟩ := by simpa using hp
    obtain ⟨ring₁', hs', ha'⟩ := processSpan_alike ha hs
    obtain ⟨read', hall', har⟩ := ih ha' hall
    exact ⟨read', by rw [processAll, hs']; dsimp only; rw [hall']; rfl, har⟩

theorem writeLine_alike (ctx : Context υ) (c : Command) (ha : write.Alike write') :
    (writeLine ctx write c).1 = (writeLine ctx write' c).1 ∧
      (writeLine ctx write c).2.Alike (writeLine ctx write' c).2 := by
  simp only [writeLine]
  rw [ha.free_eq]
  split
  · exact ⟨rfl, ha⟩
  · exact ⟨rfl, ha.put _⟩

theorem writeLines_alike (ctx : Context υ) (cs : List Command) (ha : write.Alike write') :
    (writeLines ctx write cs).1 = (writeLines ctx write' cs).1 ∧
      (writeLines ctx write cs).2.Alike (writeLines ctx write' cs).2 := by
  induction cs generalizing ctx write write' with
  | nil => exact ⟨rfl, ha⟩
  | cons c cs ih =>
    obtain ⟨hc, hw⟩ := writeLine_alike ctx c ha
    simp only [writeLines]
    rw [hc]
    exact ih _ hw

theorem writeOutbox_alike (s : Session σ υ) (ha : write.Alike write') :
    (s.writeOutbox write).1 = (s.writeOutbox write').1 ∧ (s.writeOutbox write).2.Alike (s.writeOutbox write').2 := by
  obtain ⟨hc, hw⟩ := writeLines_alike { s.ctx with outbox := [] } s.ctx.outbox ha
  simp only [writeOutbox]
  rw [hc]
  exact ⟨rfl, hw⟩

theorem process_alike {c : Buffers} (ha : b.Alike b') (h : s.process b = .ok (t, c, ms)) :
    ∃ c', s.process b' = .ok (t, c', ms) ∧ c.Alike c' := by
  obtain ⟨⟨u, read, first⟩, hall, h⟩ := Fault.bind_eq_ok.mp h
  obtain ⟨rfl, rfl, rfl⟩ := by simpa [pure, Except.pure] using h
  obtain ⟨read', hall', har⟩ := processAll_alike ha.read hall
  obtain ⟨hs, hw⟩ := u.writeOutbox_alike ha.write
  refine ⟨⟨read', (u.writeOutbox b'.write).2⟩, ?_, har, hw⟩
  rw [process, hall']
  dsimp only [bind, Except.bind]
  rw [hs]
  rfl

theorem processSpan_holds {C : Nat} (hr : ∃ q, ring.Holds C q) (h : s.processSpan ring = .ok (some (t, read, ms))) :
    ∃ q, read.Holds C q := by
  obtain ⟨q, hr⟩ := hr
  simp only [processSpan] at h
  split at h
  · simp at h
  · obtain ⟨r, hc, h⟩ := Fault.bind_eq_ok.mp h
    obtain ⟨⟨u, more⟩, -, h⟩ := Fault.bind_eq_ok.mp h
    obtain ⟨-, rfl, -⟩ := by simpa [pure, Except.pure] using h
    have hl : ring.readSpan.length ≤ ring.readSpanLength := Nat.le_of_eq (Ring.readSpan_length ring)
    rw [Ring.consume_eq_ok hl] at hc
    obtain rfl := Except.ok.inj hc
    exact ⟨_, hr.advanceHead hl⟩

theorem processAll_holds {C : Nat} (hr : ∃ q, ring.Holds C q) (h : s.processAll ring = .ok (t, read, ms)) :
    ∃ q, read.Holds C q := by
  induction s, ring using processAll.induct generalizing t read ms with
  | case1 s ring f hs => rw [processAll, hs] at h; simp at h
  | case2 s ring hs =>
    rw [processAll, hs] at h
    obtain ⟨-, rfl, -⟩ := by simpa using h
    exact hr
  | case3 s ring u ring₁ first hs ih =>
    rw [processAll, hs] at h
    obtain ⟨⟨last, r, more⟩, hall, hp⟩ := Fault.map_eq_ok.mp h
    obtain ⟨-, rfl, -⟩ := by simpa using hp
    exact ih (processSpan_holds hr hs) hall

theorem writeLine_holds {C : Nat} (ctx : Context υ) (c : Command) (hw : ∃ q, write.Holds C q) :
    ∃ q, (writeLine ctx write c).2.Holds C q := by
  obtain ⟨q, hw⟩ := hw
  simp only [writeLine]
  split
  · exact ⟨q, hw⟩
  · exact ⟨_, (hw.put _).2⟩

theorem writeLines_holds {C : Nat} (ctx : Context υ) (cs : List Command) (hw : ∃ q, write.Holds C q) :
    ∃ q, (writeLines ctx write cs).2.Holds C q := by
  induction cs generalizing ctx write with
  | nil => exact hw
  | cons c cs ih => exact ih _ (writeLine_holds ctx c hw)

theorem writeOutbox_holds {C : Nat} (s : Session σ υ) (hw : ∃ q, write.Holds C q) :
    ∃ q, (s.writeOutbox write).2.Holds C q := writeLines_holds _ s.ctx.outbox hw

theorem process_hold {C : Nat} {c : Buffers} (hb : b.Hold C) (h : s.process b = .ok (t, c, ms)) : c.Hold C := by
  obtain ⟨⟨u, read, first⟩, hall, h⟩ := Fault.bind_eq_ok.mp h
  obtain ⟨-, rfl, -⟩ := by simpa [pure, Except.pure] using h
  exact ⟨processAll_holds hb.read hall, u.writeOutbox_holds hb.write⟩

theorem process_idle {C : Nat} (hr : b.read.Holds C []) (ho : s.ctx.outbox = []) : s.process b = .ok (s, b, []) := by
  have hs : ({ s with ctx := { s.ctx with outbox := [] } } : Session σ υ) = s := by rw [← ho]
  rw [process, processAll, processSpan_nil hr]
  dsimp only [bind, Except.bind]
  rw [writeOutbox, ho]
  dsimp only [writeLines]
  rw [hs]
  rfl

end

theorem setHandlers_lookup {γ : Type} {command : Bytes} {hs : List (Handler Unit γ)}
    {all : List (Bytes × List (Handler Unit γ))} (h : all.lookup command = some hs) :
    Dispatcher.setHandlers command hs all = all := by
  induction all with
  | nil => simp at h
  | cons p all ih =>
    obtain ⟨c, old⟩ := p
    rw [List.lookup_cons] at h
    rw [Dispatcher.setHandlers]
    by_cases hc : c = command
    · subst hc
      rw [beq_self_eq_true] at h
      obtain rfl := Option.some.inj h
      rw [if_pos rfl]
    · rw [beq_false_of_ne (Ne.symm hc)] at h
      rw [if_neg hc, ih h]

theorem runAll_handlers {γ : Type} (hs : List (Handler Unit γ)) (ctx : γ) (m : Message) :
    (Handler.runAll hs ctx m).1 = hs := by
  induction hs generalizing ctx with
  | nil => rfl
  | cons h hs ih =>
    simp only [Handler.runAll]
    rw [ih]
    rfl

theorem dispatch_dispatcher {γ : Type} (d : Dispatcher Unit γ) (ctx : γ) (m : Message) :
    (d.dispatch ctx m).1 = d := by
  unfold Dispatcher.dispatch
  split
  · rfl
  · rename_i hs hl
    dsimp only
    rw [runAll_handlers, setHandlers_lookup hl]

variable {config : Config} {s t : Session Unit Unit}

structure Of (config : Config) (s : Session Unit Unit) : Prop where
  dispatcher : s.dispatcher = (create config () : Session Unit Unit).dispatcher
  identity : s.ctx.identity = config.identity
  channels : s.ctx.channels = config.channels

theorem handlers_create (config : Config) :
    (create config () : Session Unit Unit).dispatcher.handlers =
      [(.ofText "PING", [.stateless Context.onPing]), (.ofText "004", [.stateless Context.onRegistered]),
        (.ofText "433", [.stateless Context.onNickInUse]), (.ofText "ERROR", [.stateless Context.onError])] := by
  rfl

theorem onRegistered_keeps (ctx : Context Unit) (m : Message) :
    (ctx.onRegistered m).identity = ctx.identity ∧ (ctx.onRegistered m).channels = ctx.channels := by
  have joins (cs : List Channel) (ctx : Context Unit) :
      (cs.foldl (fun ctx c => ctx.send (.join c.name c.key)) ctx).identity = ctx.identity ∧
        (cs.foldl (fun ctx c => ctx.send (.join c.name c.key)) ctx).channels = ctx.channels := by
    induction cs generalizing ctx with
    | nil => exact ⟨rfl, rfl⟩
    | cons c cs ih => exact ih (ctx.send (.join c.name c.key))
  exact joins ctx.channels (ctx.note (.registered ctx.nick))

theorem handler_keeps {command : Bytes} {hs : List (Handler Unit (Context Unit))}
    (h : (create config () : Session Unit Unit).dispatcher.handlers.lookup command = some hs) (ctx : Context Unit)
    (m : Message) :
    (Handler.runAll hs ctx m).2.identity = ctx.identity ∧ (Handler.runAll hs ctx m).2.channels = ctx.channels := by
  obtain ⟨before, after, heq, -⟩ := List.lookup_eq_some_iff.mp h
  have hmem : (command, hs) ∈ (create config () : Session Unit Unit).dispatcher.handlers := by
    rw [heq]
    exact List.mem_append_right _ List.mem_cons_self
  rw [handlers_create] at hmem
  simp only [List.mem_cons, Prod.mk.injEq, List.not_mem_nil, or_false] at hmem
  obtain ⟨-, rfl⟩ | ⟨-, rfl⟩ | ⟨-, rfl⟩ | ⟨-, rfl⟩ := hmem
  · exact ⟨rfl, rfl⟩
  · exact onRegistered_keeps ctx m
  · exact ⟨rfl, rfl⟩
  · exact ⟨rfl, rfl⟩

namespace Of

theorem create (config : Config) : Of config (create config ()) := ⟨rfl, rfl, rfl⟩

theorem dispatch (h : Of config s) (m : Message) : Of config (s.dispatch m) := by
  have hd := (dispatch_dispatcher s.dispatcher s.ctx m).trans h.dispatcher
  have hk : (s.dispatcher.dispatch s.ctx m).2.1.identity = s.ctx.identity ∧
      (s.dispatcher.dispatch s.ctx m).2.1.channels = s.ctx.channels := by
    unfold Dispatcher.dispatch
    split
    · exact ⟨rfl, rfl⟩
    · rename_i hs hl
      rw [h.dispatcher] at hl
      exact handler_keeps hl s.ctx m
  exact ⟨hd, hk.1.trans h.identity, hk.2.trans h.channels⟩

theorem heard {ms : List Message} (h : Of config s) (hh : Heard s ms t) : Of config t := by
  induction hh with
  | nothing => exact h
  | dispatched _ m ih => exact ih.dispatch m
  | aside _ _ _ _ _ ih => exact ⟨ih.dispatcher, ih.identity, ih.channels⟩

theorem writeOutbox (h : Of config s) (write : Ring) : Of config (s.writeOutbox write).1 := by
  obtain ⟨notices, hn⟩ := s.writeOutbox_session write
  rw [hn]
  exact ⟨h.dispatcher, h.identity, h.channels⟩

theorem send (h : Of config s) (c : Command) : Of config (s.send c) := ⟨h.dispatcher, h.identity, h.channels⟩

theorem greet (h : Of config s) (write : Ring) : Of config (s.greet write).1 :=
  ((h.send _).send _).writeOutbox write

theorem reset_eq (h : Of config s) (hn : s.ctx.notices = []) : s.reset = Session.create config () := by
  obtain ⟨⟨identity, channels, attempt, outbox, notices, user⟩, dispatcher, pending, discarding⟩ := s
  obtain ⟨hd, hi, hc⟩ := h
  dsimp only at hd hi hc hn
  subst hd hi hc hn
  rfl

end Of

end Session

end IrcLink
