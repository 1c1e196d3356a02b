import IrcLink.Proofs.Ring.Queue
import IrcLink.Proofs.Session.Lines

/-!
However a stream is cut and wherever in the ring its pieces come to stand, the same lines are looked at. What a call
says it dispatched is what went to the handlers.
-/

namespace IrcLink

open Bytes

namespace Session

variable {σ υ : Type} {s t : Session σ υ}

/-- These messages went to the handlers of a session, one after another, and turned it into the other. Nothing else that
handlers can change has changed, but for notices and what is to be sent. -/
inductive Heard (s : Session σ υ) : List Message → Session σ υ → Prop
  | nothing : Heard s [] s
  | dispatched {ms : List Message} {t : Session σ υ} (h : Heard s ms t) (m : Message) : Heard s (ms ++ [m]) (t.dispatch m)
  | aside {ms : List Message} {t : Session σ υ} (h : Heard s ms t) (outbox : List Command) (notices : List Notice)
      (pending : Bytes) (discarding : Bool) :
      Heard s ms { t with ctx := { t.ctx with outbox, notices }, pending, discarding }

/-- These messages were read and went to the handlers, one after another. Nothing else has happened to the session, but
that text was received and taken off, and that notice was given of lines that are too long. -/
inductive Scanned (s : Session σ υ) : List Message → Session σ υ → Prop
  | nothing : Scanned s [] s
  | dispatched {ms : List Message} {t : Session σ υ} {data : Bytes} {m : Message} {n : Nat} (h : Scanned s ms t)
      (hm : Message.parse data = .ok (m, n)) : Scanned s (ms ++ [m]) (t.dispatch m)
  | moved {ms : List Message} {t : Session σ υ} (h : Scanned s ms t) (pending : Bytes) (discarding : Bool) :
      Scanned s ms { t with pending, discarding }
  | oversize {ms : List Message} {t : Session σ υ} (h : Scanned s ms t) (len : Nat) :
      Scanned s ms { t with ctx := t.ctx.note (.oversizeLine len) }

namespace Scanned

variable {u : Session σ υ} {ms ms' : List Message}

theorem trans (h : Scanned s ms t) (h' : Scanned t ms' u) : Scanned s (ms ++ ms') u := by
  induction h' with
  | nothing => rwa [List.append_nil]
  | dispatched _ hm ih =>
    rw [← List.append_assoc]
    exact ih.dispatched hm
  | moved _ pending discarding ih => exact ih.moved pending discarding
  | oversize _ len ih => exact ih.oversize len

theorem heard (h : Scanned s ms t) : Heard s ms t := by
  induction h with
  | nothing => exact .nothing
  | @dispatched _ _ _ m _ _ _ ih => exact ih.dispatched m
  | @moved _ t _ pending discarding ih => exact ih.aside t.ctx.outbox t.ctx.notices pending discarding
  | @oversize _ t _ len ih => exact ih.aside t.ctx.outbox _ t.pending t.discarding

end Scanned

theorem resume_scanned (h : s.resume = some t) : Scanned s [] t := by
  unfold resume at h
  split at h
  · obtain ⟨⟨_, rest⟩, -, rfl⟩ := Option.map_eq_some_iff.mp h
    exact Scanned.nothing.moved rest false
  · obtain rfl := Option.some.inj h
    exact .nothing

theorem scan_scanned {r : Scan σ υ} (h : s.scan = .ok r) :
    match r with
    | .line t m => Scanned s m.toList t
    | .rest t => Scanned s [] t := by
  unfold scan at h
  split at h
  · obtain rfl := Except.ok.inj h
    exact Scanned.nothing.moved [] s.discarding
  · rename_i s' hr
    have hs := resume_scanned hr
    split at h
    · rename_i m n hm
      obtain ⟨pending, -, rfl⟩ := Fault.map_eq_ok.mp h
      exact (hs.dispatched hm).moved pending _
    · obtain ⟨pending, -, rfl⟩ := Fault.map_eq_ok.mp h
      exact hs.moved pending s'.discarding
    · split at h
      · obtain rfl := Except.ok.inj h
        exact (hs.oversize s'.pending.length).moved [] true
      · obtain rfl := Except.ok.inj h
        exact hs

theorem scanAll_scanned {ms : List Message} (h : s.scanAll = .ok (t, ms)) : Scanned s ms t := by
  induction s using scanAll.induct generalizing t ms with
  | case1 s f hs => rw [scanAll, hs] at h; simp at h
  | case2 s u hs =>
    rw [scanAll_of_rest hs] at h
    obtain ⟨rfl, rfl⟩ := Prod.mk.inj (Except.ok.inj h)
    exact scan_scanned hs
  | case3 s u m hs ih =>
    rw [scanAll_of_line hs] at h
    obtain ⟨⟨last, more⟩, ha, hp⟩ := Fault.map_eq_ok.mp h
    obtain ⟨rfl, rfl⟩ := Prod.mk.inj hp
    exact (scan_scanned hs).trans (ih ha)

theorem processSpan_scanned {read read' : Ring} {ms : List Message}
    (h : s.processSpan read = .ok (some (t, read', ms))) : Scanned s ms t := by
  simp only [processSpan] at h
  split at h
  · simp at h
  · obtain ⟨r, -, h⟩ := Fault.bind_eq_ok.mp h
    obtain ⟨⟨u, more⟩, ha, h⟩ := Fault.bind_eq_ok.mp h
    obtain ⟨rfl, -, rfl⟩ := by simpa [pure, Except.pure] using h
    exact (Scanned.nothing.moved _ s.discarding).trans (scanAll_scanned ha)

theorem processAll_scanned {read read' : Ring} {ms : List Message} (h : s.processAll read = .ok (t, read', ms)) :
    Scanned s ms t := by
  induction s, read using processAll.induct generalizing t read' ms with
  | case1 s read f hs => rw [processAll, hs] at h; simp at h
  | case2 s read hs =>
    rw [processAll, hs] at h
    obtain ⟨rfl, -, rfl⟩ := by simpa using h
    exact .nothing
  | case3 s read u read₁ first hs ih =>
    rw [processAll, hs] at h
    obtain ⟨⟨last, ring, more⟩, ha, hp⟩ := Fault.map_eq_ok.mp h
    obtain ⟨rfl, -, rfl⟩ := by simpa using hp
    exact (processSpan_scanned hs).trans (ih ha)

def OnlyDrops (said : List Notice) : Prop := ∀ n ∈ said, ∃ len free, n = .lineDropped len free

theorem writeLine_drops (ctx : Context υ) (write : Ring) (c : Command) :
    ∃ dropped, OnlyDrops dropped ∧ (writeLine ctx write c).1 = { ctx with notices := ctx.notices ++ dropped } := by
  unfold writeLine
  dsimp only
  split
  · exact ⟨_, List.forall_mem_singleton.mpr ⟨_, _, rfl⟩, rfl⟩
  · exact ⟨[], nofun, by rw [List.append_nil]⟩

theorem writeLines_drops (ctx : Context υ) (write : Ring) (cs : List Command) :
    ∃ dropped, OnlyDrops dropped ∧ (writeLines ctx write cs).1 = { ctx with notices := ctx.notices ++ dropped } := by
  induction cs generalizing ctx write with
  | nil => exact ⟨[], nofun, by rw [List.append_nil, writeLines]⟩
  | cons c cs ih =>
    obtain ⟨dropped, hdropped, hn⟩ := writeLine_drops ctx write c
    obtain ⟨dropped', hdropped', hn'⟩ := ih (writeLine ctx write c).1 (writeLine ctx write c).2
    refine ⟨dropped ++ dropped', List.forall_mem_append.mpr ⟨hdropped, hdropped'⟩, ?_⟩
    rw [writeLines]
    dsimp only
    rw [hn', hn, List.append_assoc]

theorem writeOutbox_drops (s : Session σ υ) (write : Ring) :
    ∃ dropped, OnlyDrops dropped ∧ (s.writeOutbox write).1 =
      { s with ctx := { s.ctx with outbox := [], notices := s.ctx.notices ++ dropped } } := by
  obtain ⟨dropped, hdropped, hn⟩ := writeLines_drops { s.ctx with outbox := [] } write s.ctx.outbox
  refine ⟨dropped, hdropped, ?_⟩
  rw [writeOutbox]
  dsimp only
  rw [hn]

theorem writeOutbox_session (s : Session σ υ) (write : Ring) :
    ∃ notices, (s.writeOutbox write).1 = { s with ctx := { s.ctx with outbox := [], notices } } := by
  obtain ⟨dropped, -, hn⟩ := s.writeOutbox_drops write
  exact ⟨_, hn⟩

theorem process_heard {b b' : Buffers} {ms : List Message} (h : s.process b = .ok (t, b', ms)) : Heard s ms t := by
  obtain ⟨⟨u, read, first⟩, ha, h⟩ := Fault.bind_eq_ok.mp h
  obtain ⟨rfl, -, rfl⟩ := by simpa [pure, Except.pure] using h
  obtain ⟨notices, hn⟩ := u.writeOutbox_session b.write
  rw [hn]
  exact (processAll_scanned ha).heard.aside [] notices u.pending u.discarding

theorem processSpan_isOk (s : Session σ υ) (read : Ring) : ∃ r, s.processSpan read = .ok r := by
  rw [processSpan]
  dsimp only
  split
  · exact ⟨none, rfl⟩
  · obtain ⟨t, ms, hs⟩ := scanAll_isOk { s with pending := s.pending ++ read.readSpan }
    rw [Ring.consume_eq_ok (Nat.le_of_eq (Ring.readSpan_length read))]
    dsimp only [bind, Except.bind]
    rw [hs]
    exact ⟨_, rfl⟩

theorem processAll_isOk (s : Session σ υ) (read : Ring) : ∃ t read' ms, s.processAll read = .ok (t, read', ms) := by
  induction s, read using processAll.induct with
  | case1 s read f hs =>
    obtain ⟨r, hr⟩ := processSpan_isOk s read
    rw [hr] at hs
    simp at hs
  | case2 s read hs => exact ⟨s, read, [], by rw [processAll, hs]⟩
  | case3 s read t read' ms hs ih =>
    obtain ⟨last, ring, more, hl⟩ := ih
    exact ⟨last, ring, ms ++ more, by rw [processAll, hs]; dsimp only; rw [hl]; rfl⟩

theorem process_isOk (s : Session σ υ) (b : Buffers) : ∃ t b' ms, s.process b = .ok (t, b', ms) := by
  obtain ⟨t, read, ms, hp⟩ := processAll_isOk s b.read
  rw [process, hp]
  exact ⟨_, _, _, rfl⟩

theorem processSpan_nil {ring : Ring} {C : Nat} (h : ring.Holds C []) : s.processSpan ring = .ok none := by
  have hs : ring.readSpan = [] := by rw [h.readSpan_eq, List.take_nil]
  rw [processSpan]
  dsimp only
  rw [if_pos hs]

theorem processSpan_more {tail q : Bytes} {ring : Ring} {C : Nat} (hw : s.Waits tail) (ht : lf ∉ tail)
    (h : ring.Holds C q) (hq : q ≠ []) :
    ∃ t, s.processSpan ring = .ok (some (t, ring.advanceHead ring.readSpanLength,
        (heeded tail (lines (tail ++ q.take ring.readSpanLength)).1).filterMap Message.ofTerminated?)) ∧
      t.Waits (lines (tail ++ q.take ring.readSpanLength)).2 := by
  have hne : ring.readSpan ≠ [] := by
    rw [← List.length_pos_iff, Ring.readSpan_length]
    exact h.readSpanLength_pos hq
  obtain ⟨t, hs, htw⟩ := scanAll_more hw ht ring.readSpan
  refine ⟨t, ?_, h.readSpan_eq ▸ htw⟩
  rw [processSpan]
  dsimp only
  rw [if_neg hne, Ring.readSpan_length, Ring.consume_eq_ok (Nat.le_refl _)]
  dsimp only [bind, Except.bind]
  rw [hs, ← h.readSpan_eq]
  rfl

theorem processAll_lines {tail q : Bytes} {ring : Ring} {C : Nat} (hw : s.Waits tail) (ht : lf ∉ tail)
    (h : ring.Holds C q) :
    ∃ t ring' kept, s.processAll ring = .ok (t, ring', kept.filterMap Message.ofTerminated?) ∧ ring'.Holds C [] ∧
      Kept (lines (tail ++ q)).1 kept ∧ t.Waits (lines (tail ++ q)).2 := by
  induction hn : q.length using Nat.strongRecOn generalizing s tail q ring with
  | ind n ih =>
    by_cases hq : q = []
    · subst hq
      refine ⟨s, ring, [], by rw [processAll, processSpan_nil h]; rfl, h, ?_, ?_⟩
      all_goals rw [List.append_nil, lines_of_notMem ht]
      · exact .refl []
      · exact hw
    · obtain ⟨t, hs, htw⟩ := processSpan_more hw ht h hq
      have hkept := kept_heeded ht (q.take ring.readSpanLength)
      have hk := h.readSpanLength_pos hq
      generalize hkdef : ring.readSpanLength = k at hs htw hkept hk
      have hl : (q.drop k).length < n := by
        have := List.length_pos_iff.mpr hq
        rw [List.length_drop]
        omega
      obtain ⟨last, ring', kept', ha, hr', hkept', hlast⟩ :=
        ih _ hl htw (lines_join _).2.2 (h.advanceHead (Nat.le_of_eq hkdef.symm)) rfl
      have hcut : lines (tail ++ q) = ((lines (tail ++ q.take k)).1 ++ (lines ((lines (tail ++ q.take k)).2 ++ q.drop k)).1,
          (lines ((lines (tail ++ q.take k)).2 ++ q.drop k)).2) := by
        rw [← lines_append, List.append_assoc, List.take_append_drop]
      rw [hcut]
      refine ⟨last, ring', _ ++ kept', ?_, hr', hkept.append hkept', hlast⟩
      rw [processAll, hs]
      dsimp only
      rw [ha, List.filterMap_append]
      rfl

theorem process_lines {tail q : Bytes} {b : Buffers} {C : Nat} (hw : s.Waits tail) (ht : lf ∉ tail)
    (h : b.read.Holds C q) :
    ∃ t b' kept, s.process b = .ok (t, b', kept.filterMap Message.ofTerminated?) ∧ b'.read.Holds C [] ∧
      Kept (lines (tail ++ q)).1 kept ∧ t.Waits (lines (tail ++ q)).2 := by
  obtain ⟨t, ring, kept, ha, hr, hk, htw⟩ := processAll_lines hw ht h
  obtain ⟨notices, hn⟩ := t.writeOutbox_session b.write
  refine ⟨(t.writeOutbox b.write).1, ⟨ring, (t.writeOutbox b.write).2⟩, kept, ?_, hr, hk, ?_⟩
  · rw [process, ha]
    rfl
  · rw [hn]
    exact htw

/-- Puts each piece into a ring and processes it: the last session, and for each call what it left in the buffers and
what it says it dispatched. The buffers may be others for every piece. -/
def feed (s : Session σ υ) : List (Buffers × Bytes) → Except Fault (Session σ υ × List (Buffers × List Message))
  | [] => .ok (s, [])
  | (b, piece) :: pieces => do
    let (s, b, ms) ← s.process { b with read := (b.read.put piece).1 }
    let (last, answers) ← feed s pieces
    return (last, (b, ms) :: answers)

theorem feed_lines {tail : Bytes} (hw : s.Waits tail) (ht : lf ∉ tail) (pieces : List (Buffers × Bytes))
    (hfit : ∀ p ∈ pieces, p.1.read.WellFormed ∧ p.1.read.isEmpty ∧ p.2.length ≤ p.1.read.free) :
    ∃ last answers kept, s.feed pieces = .ok (last, answers) ∧
      (∀ a ∈ answers, a.1.read.WellFormed ∧ a.1.read.isEmpty) ∧
      answers.flatMap (·.2) = kept.filterMap Message.ofTerminated? ∧
      Kept (lines (tail ++ pieces.flatMap (·.2))).1 kept ∧
      last.Waits (lines (tail ++ pieces.flatMap (·.2))).2 := by
  induction pieces generalizing s tail with
  | nil =>
    refine ⟨s, [], [], rfl, nofun, rfl, ?_, ?_⟩
    all_goals rw [List.flatMap_nil, List.append_nil, lines_of_notMem ht]
    · exact .refl []
    · exact hw
  | cons p pieces ih =>
    obtain ⟨b, piece⟩ := p
    obtain ⟨⟨hwf, he, hl⟩, hrest⟩ := List.forall_mem_cons.mp hfit
    have hempty : b.read.Holds b.read.capacity [] := hwf.holds_of_isEmpty he
    have hput : (b.read.put piece).1.Holds b.read.capacity piece := by
      apply hempty.put_of_le
      have hfree := hempty.free_eq
      dsimp only at hl
      rw [List.length_nil] at hfree ⊢
      omega
    obtain ⟨t, b', kept, hp, hr, hk, htw⟩ :=
      @process_lines _ _ _ _ _ { b with read := (b.read.put piece).1 } _ hw ht hput
    obtain ⟨last, answers, kept', hf, ha, hm, hk', hlast⟩ := ih htw (lines_join _).2.2 hrest
    rw [List.flatMap_cons, ← List.append_assoc, lines_append]
    refine ⟨last, (b', kept.filterMap Message.ofTerminated?) :: answers, kept ++ kept', ?_, ?_, ?_, hk.append hk', hlast⟩
    · rw [feed, hp]
      dsimp only [bind, Except.bind]
      rw [hf]
      rfl
    · exact List.forall_mem_cons.mpr ⟨⟨hr.wellFormed, hr.isEmpty_iff.mpr rfl⟩, ha⟩
    · rw [List.flatMap_cons, hm, List.filterMap_append]

theorem feed_dispatches_lines (s : Session σ υ) (hp : s.pending = []) (hd : s.discarding = false)
    (pieces : List (Buffers × Bytes))
    (hfit : ∀ p ∈ pieces, p.1.read.WellFormed ∧ p.1.read.isEmpty ∧ p.2.length ≤ p.1.read.free) :
    ∃ last answers kept, s.feed pieces = .ok (last, answers) ∧
      -- nothing is left in a ring
      (∀ a ∈ answers, a.1.read.WellFormed ∧ a.1.read.isEmpty) ∧
      -- some of the lines that are too long are dropped, and all others are looked at, in order
      answers.flatMap (·.2) = kept.filterMap Message.ofTerminated? ∧
      Kept (lines (pieces.flatMap (·.2))).1 kept ∧
      ((∀ line ∈ (lines (pieces.flatMap (·.2))).1, line.length ≤ maxPending) →
        answers.flatMap (·.2) = (lines (pieces.flatMap (·.2))).1.filterMap Message.ofTerminated?) ∧
      -- what has come of the next line waits for its end
      last.Waits (lines (pieces.flatMap (·.2))).2 ∧
      -- in every call, what is said to be dispatched went to the handlers
      ∀ (t t' : Session σ υ) (b b' : Buffers) (ms : List Message), t.process b = .ok (t', b', ms) → Heard t ms t' := by
  have hw : s.Waits [] := .inl ⟨hd, hp, Nat.zero_le _⟩
  obtain ⟨last, answers, kept, hf, ha, hm, hk, hlast⟩ := feed_lines hw List.not_mem_nil pieces hfit
  rw [List.nil_append] at hk hlast
  refine ⟨last, answers, kept, hf, ha, hm, hk, ?_, hlast, fun t t' b b' ms => process_heard⟩
  intro hl
  rw [hm, hk.eq_of_short hl]

def nearTheEnd : Buffers := ⟨⟨#[0, 0, 0, 0, 0, 0], 5, 5, 0⟩, ⟨#[0], 0, 0, 0⟩⟩

theorem feed_dispatches_lines_round_the_end :
    ∃ last answers, (Session.create ⟨⟨"host", 6667⟩, ⟨["nick"], "name", "login"⟩, [], {}, {}⟩ () : Session Unit Unit).feed
        [(nearTheEnd, ofText "PING"), (nearTheEnd, ofText " a\r\n")] = .ok (last, answers) ∧
      answers.flatMap (·.2) = [⟨none, ofText "PING", ofText "a"⟩] := by
  have hfit : ∀ p ∈ [(nearTheEnd, ofText "PING"), (nearTheEnd, ofText " a\r\n")],
      p.1.read.WellFormed ∧ p.1.read.isEmpty ∧ p.2.length ≤ p.1.read.free := by
    intro p hp
    obtain rfl | rfl : p = (nearTheEnd, ofText "PING") ∨ p = (nearTheEnd, ofText " a\r\n") := by simpa using hp
    all_goals exact ⟨⟨by decide, by decide, by decide, by decide⟩, rfl, by decide⟩
  have hlines : (lines ([(nearTheEnd, ofText "PING"), (nearTheEnd, ofText " a\r\n")].flatMap (·.2))).1 =
      [ofText "PING a\r"] := by decide +kernel
  obtain ⟨last, answers, -, hf, -, -, -, hm, -⟩ := feed_dispatches_lines
    (Session.create ⟨⟨"host", 6667⟩, ⟨["nick"], "name", "login"⟩, [], {}, {}⟩ () : Session Unit Unit) rfl rfl _ hfit
  rw [hlines] at hm
  refine ⟨last, answers, hf, ?_⟩
  rw [hm (by decide)]
  decide +kernel

end Session

end IrcLink
