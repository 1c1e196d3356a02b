import IrcLink.Proofs.Message.Grammar
import IrcLink.Proofs.Ring.Alike
import IrcLink.Proofs.Session.Framing

/-!
Lines that are too long. How much of a line is there is only asked where a span ends within it, so it is the cuts of a
stream that tell which of these lines are dropped: one that is there to its end when it is first looked at is
dispatched, whatever its length. No cuts drop any other line, and no line gets through that is longer than the limit
and a ring together.
-/

namespace IrcLink

open Bytes

namespace Bytes

def extent (lines : List Bytes) : Nat := (lines.flatMap (· ++ [lf])).length

def placed (start : Nat) : List Bytes → List (Nat × Bytes)
  | [] => []
  | line :: rest => (start, line) :: placed (start + line.length + 1) rest

variable {start : Nat} {p : Nat × Bytes}

theorem extent_cons (line : Bytes) (rest : List Bytes) : extent (line :: rest) = line.length + 1 + extent rest := by
  rw [extent, List.flatMap_cons, List.length_append, List.length_append, List.length_singleton, extent]

theorem extent_lines (s : Bytes) : extent (lines s).1 + (lines s).2.length = s.length := by
  rw [extent, ← List.length_append, (lines_join s).1]

theorem placed_append (start : Nat) (first rest : List Bytes) :
    placed start (first ++ rest) = placed start first ++ placed (start + extent first) rest := by
  induction first generalizing start with
  | nil => rfl
  | cons line first ih =>
    rw [List.cons_append, placed, placed, ih, extent_cons, List.cons_append]
    congr 3
    omega

theorem placed_map_snd (start : Nat) (ls : List Bytes) : (placed start ls).map (·.2) = ls := by
  induction ls generalizing start with
  | nil => rfl
  | cons line rest ih => rw [placed, List.map_cons, ih]

theorem placed_within {ls : List Bytes} (h : p ∈ placed start ls) :
    start ≤ p.1 ∧ p.1 + p.2.length < start + extent ls := by
  induction ls generalizing start with
  | nil => simp [placed] at h
  | cons line rest ih =>
    rw [extent_cons]
    obtain rfl | h := List.mem_cons.mp h
    · exact ⟨Nat.le_refl _, by dsimp only; omega⟩
    · have := ih h
      omega

theorem placed_beyond {tail : Bytes} (ht : lf ∉ tail) {more : Bytes} (h : p ∈ placed start (lines (tail ++ more)).1) :
    start + tail.length ≤ p.1 + p.2.length := by
  cases hs : splitAt? lf more with
  | none =>
    rw [lines_of_notMem fun hm => (List.mem_append.mp hm).elim ht (splitAt?_eq_none.mp hs)] at h
    simp [placed] at h
  | some c =>
    obtain ⟨rfl, hline⟩ := splitAt?_eq_some hs
    rw [← List.append_assoc, lines_append_lf fun hm => (List.mem_append.mp hm).elim ht hline] at h
    obtain rfl | h := List.mem_cons.mp h
    · rw [List.length_append]
      omega
    · have := (placed_within h).1
      rw [List.length_append] at this
      omega

end Bytes

namespace Session

variable {σ υ : Type} {s t : Session σ υ} {start : Nat} {p : Nat × Bytes}

/-- None of these cuts falls into the line with more than `maxPending` bytes of it before it. -/
def Uncut (cuts : List Nat) (p : Nat × Bytes) : Prop := ∀ c ∈ cuts, c ≤ p.1 + maxPending ∨ p.1 + p.2.length < c

instance (cuts : List Nat) : DecidablePred (Uncut cuts) :=
  fun p => inferInstanceAs (Decidable (∀ c ∈ cuts, c ≤ p.1 + maxPending ∨ p.1 + p.2.length < c))

def spared (cuts : List Nat) (start : Nat) (ls : List Bytes) : List Bytes :=
  ((placed start ls).filter (Uncut cuts)).map (·.2)

theorem uncut_of_short {cuts : List Nat} (h : p.2.length ≤ maxPending) : Uncut cuts p := fun c _ => by omega

theorem spared_eq_self {cuts : List Nat} {ls : List Bytes} (h : ∀ p ∈ placed start ls, Uncut cuts p) :
    spared cuts start ls = ls := by
  rw [spared, List.filter_eq_self.mpr fun p hp => decide_eq_true (h p hp), placed_map_snd]

theorem spared_congr {cuts cuts' : List Nat} {ls : List Bytes}
    (h : ∀ p ∈ placed start ls, Uncut cuts p ↔ Uncut cuts' p) : spared cuts start ls = spared cuts' start ls := by
  rw [spared, spared, List.filter_congr fun p hp => decide_eq_decide.mpr (h p hp)]

theorem spared_append (cuts : List Nat) (start : Nat) (first rest : List Bytes) :
    spared cuts start (first ++ rest) = spared cuts start first ++ spared cuts (start + extent first) rest := by
  rw [spared, placed_append, List.filter_append, List.map_append]
  rfl

theorem heeded_eq_spared {tail : Bytes} (ht : lf ∉ tail) (more : Bytes) (start : Nat) :
    heeded tail (lines (tail ++ more)).1 = spared [start + tail.length] start (lines (tail ++ more)).1 := by
  cases hs : splitAt? lf more with
  | none =>
    rw [lines_of_notMem fun hm => (List.mem_append.mp hm).elim ht (splitAt?_eq_none.mp hs)]
    simp [heeded, spared, placed]
  | some c =>
    obtain ⟨line, rest⟩ := c
    obtain ⟨rfl, hline⟩ := splitAt?_eq_some hs
    rw [← List.append_assoc, lines_append_lf fun hm => (List.mem_append.mp hm).elim ht hline]
    have hrest : spared [start + tail.length] (start + (tail ++ line).length + 1) (lines rest).1 = (lines rest).1 := by
      refine spared_eq_self fun p hp c hc => ?_
      have := (placed_within hp).1
      rw [List.mem_singleton.mp hc, List.length_append] at *
      omega
    have hfirst : Uncut [start + tail.length] (start, tail ++ line) ↔ tail.length ≤ maxPending := by
      rw [Uncut, List.forall_mem_singleton, List.length_append]
      omega
    rw [heeded, spared, placed, List.filter_cons]
    by_cases hl : tail.length ≤ maxPending
    · rw [if_pos hl, if_pos (decide_eq_true (hfirst.mpr hl)), List.map_cons]
      exact congrArg _ hrest.symm
    · rw [if_neg hl, if_neg (by simpa using mt hfirst.mp hl)]
      exact hrest.symm

theorem spared_split (early late : List Nat) {at' : Nat} {s : Bytes} (hat : start + s.length = at')
    (he : ∀ c ∈ early, c ≤ at') (hl : ∀ c ∈ late, at' ≤ c) (hm : at' ∈ late) (rest : Bytes) :
    spared (early ++ late) start (lines (s ++ rest)).1 =
      spared early start (lines s).1 ++
        spared late (start + extent (lines s).1) (lines ((lines s).2 ++ rest)).1 := by
  have hlen := extent_lines s
  rw [lines_append, spared_append]
  congr 1
  · refine spared_congr fun p hp => ⟨fun h c hc => h c (List.mem_append_left _ hc), fun h c hc => ?_⟩
    obtain hc | hc := List.mem_append.mp hc
    · exact h c hc
    · have := (placed_within hp).2
      have := hl c hc
      omega
  · refine spared_congr fun p hp => ⟨fun h c hc => h c (List.mem_append_right _ hc), fun h c hc => ?_⟩
    obtain hc | hc := List.mem_append.mp hc
    · have := placed_beyond (lines_join s).2.2 hp
      have := he c hc
      have := h at' hm
      omega
    · exact h c hc

theorem processAll_span {tail q : Bytes} {ring : Ring} {C : Nat} (hw : s.Waits tail) (ht : lf ∉ tail)
    (h : ring.Holds C q) (hq : ring.readSpanLength = q.length) :
    ∃ t ring', s.processAll ring =
        .ok (t, ring', (heeded tail (lines (tail ++ q)).1).filterMap Message.ofTerminated?) ∧
      ring'.Holds C [] ∧ t.Waits (lines (tail ++ q)).2 := by
  by_cases hne : q = []
  · subst hne
    rw [List.append_nil, lines_of_notMem ht]
    refine ⟨s, ring, ?_, h, hw⟩
    rw [processAll, processSpan_nil h]
    simp [heeded]
  · obtain ⟨t, hs, htw⟩ := processSpan_more hw ht h hne
    have hr := h.advanceHead (Nat.le_refl _)
    rw [hq, List.take_length] at hs htw
    rw [hq, List.drop_length] at hr
    refine ⟨t, _, ?_, hr, htw⟩
    rw [processAll, hs]
    dsimp only
    rw [processAll, processSpan_nil hr]
    simp [Except.map]

theorem processAll_spared {tail q : Bytes} {ring : Ring} {C : Nat} (hw : s.Waits tail) (ht : lf ∉ tail)
    (h : ring.Holds C q) (start : Nat) :
    ∃ t ring', s.processAll ring =
        .ok (t, ring', (spared [start + tail.length, start + tail.length + ring.readSpanLength] start
          (lines (tail ++ q)).1).filterMap Message.ofTerminated?) ∧
      ring'.Holds C [] ∧ t.Waits (lines (tail ++ q)).2 := by
  by_cases hne : q = []
  · subst hne
    have hz : ring.readSpanLength = 0 := (Ring.readSpanLength_eq_zero h.wellFormed).mpr h.len_eq
    obtain ⟨t, ring', ha, hr, htw⟩ := processAll_span hw ht h hz
    refine ⟨t, ring', ?_, hr, htw⟩
    rw [ha, List.append_nil, lines_of_notMem ht]
    simp [heeded, spared, placed]
  · obtain ⟨t, hs, htw⟩ := processSpan_more hw ht h hne
    have hrest := Ring.readSpanLength_advanceHead h.wellFormed
    have hr := h.advanceHead (Nat.le_refl _)
    have hn : ring.readSpanLength ≤ q.length := by
      rw [← h.len_eq]
      exact Nat.min_le_left _ _
    rw [h.len_eq, ← List.length_drop] at hrest
    generalize ring.readSpanLength = n at *
    obtain ⟨last, ring', ha, hr', hlast⟩ := processAll_span htw (lines_join _).2.2 hr hrest
    have hstart : start + (tail ++ q.take n).length = start + tail.length + n := by
      rw [List.length_append, List.length_take]
      omega
    have hcut := spared_split [start + tail.length] [start + tail.length + n] hstart
      (by simp) (by simp) (by simp) (q.drop n)
    rw [List.append_assoc, List.take_append_drop] at hcut
    have hfirst := heeded_eq_spared ht (q.take n) start
    have hsecond := heeded_eq_spared (lines_join (tail ++ q.take n)).2.2 (q.drop n)
      (start + extent (lines (tail ++ q.take n)).1)
    rw [Nat.add_assoc, extent_lines, hstart] at hsecond
    have hjoin : lines (tail ++ q) = lines ((tail ++ q.take n) ++ q.drop n) := by
      rw [List.append_assoc, List.take_append_drop]
    refine ⟨last, ring', ?_, hr', ?_⟩
    · rw [processAll, hs]
      dsimp only
      rw [ha, hfirst, hsecond]
      show _ = Except.ok (_, _, (spared ([_] ++ [_]) _ _).filterMap _)
      rw [hcut, List.filterMap_append]
      rfl
    · rw [hjoin, lines_append]
      exact hlast

theorem process_spared {tail : Bytes} {b : Buffers} (hw : s.Waits tail) (ht : lf ∉ tail) (hwf : b.read.WellFormed)
    (he : b.read.isEmpty) {piece : Bytes} (hl : piece.length ≤ b.read.free) (start : Nat) :
    ∃ t b' ms, s.process { b with read := (b.read.put piece).1 } = .ok (t, b', ms) ∧
      ms = (spared [start + tail.length, start + tail.length + min piece.length (b.read.capacity - b.read.head)] start
        (lines (tail ++ piece)).1).filterMap Message.ofTerminated? ∧
      t.Waits (lines (tail ++ piece)).2 := by
  have hempty := hwf.holds_of_isEmpty he
  have hput : (b.read.put piece).1.Holds b.read.capacity piece := by
    apply hempty.put_of_le
    have hfree := hempty.free_eq
    rw [List.length_nil] at hfree ⊢
    omega
  have hspan : (b.read.put piece).1.readSpanLength = min piece.length (b.read.capacity - b.read.head) := by
    rw [Ring.readSpanLength, hput.len_eq, hput.capacity_eq, Ring.put_head]
  obtain ⟨t, ring, ha, -, htw⟩ := processAll_spared hw ht hput start
  obtain ⟨notices, hn⟩ := t.writeOutbox_session b.write
  rw [hspan] at ha
  refine ⟨(t.writeOutbox b.write).1, ⟨ring, (t.writeOutbox b.write).2⟩, _, ?_, rfl, ?_⟩
  · rw [process]
    dsimp only
    rw [ha]
    rfl
  · rw [hn]
    exact htw

/-- Where spans end, when these pieces are put into these rings, the first of them from this place of the stream on. -/
def cuts (start : Nat) : List (Buffers × Bytes) → List Nat
  | [] => []
  | (b, piece) :: pieces =>
    (start + min piece.length (b.read.capacity - b.read.head)) :: (start + piece.length) ::
      cuts (start + piece.length) pieces

theorem le_of_mem_cuts {pieces : List (Buffers × Bytes)} {c : Nat} (h : c ∈ cuts start pieces) : start ≤ c := by
  induction pieces generalizing start with
  | nil => simp [cuts] at h
  | cons p pieces ih =>
    obtain rfl | h := List.mem_cons.mp h
    · omega
    · obtain rfl | h := List.mem_cons.mp h
      · omega
      · have := ih h
        omega

theorem exists_cut {pieces : List (Buffers × Bytes)} {C : Nat} (hC : ∀ p ∈ pieces, p.2.length ≤ C) (start i : Nat)
    (hs : start ≤ i) (hi : i < start + (pieces.flatMap (·.2)).length) : ∃ c ∈ cuts start pieces, i < c ∧ c ≤ i + C := by
  induction pieces generalizing start with
  | nil =>
    rw [List.flatMap_nil, List.length_nil] at hi
    omega
  | cons p pieces ih =>
    obtain ⟨b, piece⟩ := p
    obtain ⟨hp, hrest⟩ := List.forall_mem_cons.mp hC
    rw [List.flatMap_cons, List.length_append] at hi
    dsimp only at hp hi
    by_cases hlt : i < start + piece.length
    · exact ⟨start + piece.length, List.mem_cons_of_mem _ List.mem_cons_self, hlt, by omega⟩
    · obtain ⟨c, hc, hlo, hhi⟩ := ih hrest (start + piece.length) (by omega) (by omega)
      exact ⟨c, List.mem_cons_of_mem _ (List.mem_cons_of_mem _ hc), hlo, hhi⟩

theorem feed_spared {tail : Bytes} (hw : s.Waits tail) (ht : lf ∉ tail) (pieces : List (Buffers × Bytes))
    (hfit : ∀ p ∈ pieces, p.1.read.WellFormed ∧ p.1.read.isEmpty ∧ p.2.length ≤ p.1.read.free) (start : Nat) :
    ∃ last answers, s.feed pieces = .ok (last, answers) ∧
      answers.flatMap (·.2) = (spared ((start + tail.length) :: cuts (start + tail.length) pieces) start
        (lines (tail ++ pieces.flatMap (·.2))).1).filterMap Message.ofTerminated? := by
  induction pieces generalizing s tail start with
  | nil =>
    refine ⟨s, [], rfl, ?_⟩
    rw [List.flatMap_nil, List.flatMap_nil, List.append_nil, lines_of_notMem ht]
    rfl
  | cons p pieces ih =>
    obtain ⟨b, piece⟩ := p
    obtain ⟨⟨hwf, he, hl⟩, hrest⟩ := List.forall_mem_cons.mp hfit
    obtain ⟨t, b', ms, hp, hms, htw⟩ := process_spared hw ht hwf he hl start
    obtain ⟨last, answers, hf, hm⟩ := ih htw (lines_join _).2.2 hrest (start + extent (lines (tail ++ piece)).1)
    rw [Nat.add_assoc, extent_lines, List.length_append, ← Nat.add_assoc] at hm
    have hat : start + (tail ++ piece).length = start + tail.length + piece.length := by
      rw [List.length_append, Nat.add_assoc]
    have hearly : ∀ c ∈ [start + tail.length,
        start + tail.length + min piece.length (b.read.capacity - b.read.head)],
        c ≤ start + tail.length + piece.length := by
      rw [List.forall_mem_cons, List.forall_mem_singleton]
      omega
    have hcut := spared_split _ ((start + tail.length + piece.length) :: cuts (start + tail.length + piece.length) pieces)
      hat hearly (by simpa using fun c => le_of_mem_cuts) List.mem_cons_self (pieces.flatMap (·.2))
    refine ⟨last, (b', ms) :: answers, ?_, ?_⟩
    · rw [feed]
      dsimp only at hp ⊢
      rw [hp]
      dsimp only [bind, Except.bind]
      rw [hf]
      rfl
    · rw [List.flatMap_cons, List.flatMap_cons, hm, hms, ← List.filterMap_append, ← hcut, ← List.append_assoc]
      rfl

theorem feed_drops_cut_lines (s : Session σ υ) (hp : s.pending = []) (hd : s.discarding = false)
    (pieces : List (Buffers × Bytes))
    (hfit : ∀ p ∈ pieces, p.1.read.WellFormed ∧ p.1.read.isEmpty ∧ p.2.length ≤ p.1.read.free) :
    let ls := (lines (pieces.flatMap (·.2))).1
    ∃ last answers, s.feed pieces = .ok (last, answers) ∧
      -- of all lines, those are dropped that a span ends in after too much of it
      answers.flatMap (·.2) = (spared (cuts 0 pieces) 0 ls).filterMap Message.ofTerminated? ∧
      -- no line that is not too long is one of them
      (∀ p ∈ placed 0 ls, p.2.length ≤ maxPending → Uncut (cuts 0 pieces) p) ∧
      -- every line is that is longer than what is kept of a line and a ring together
      (∀ C, (∀ p ∈ pieces, p.1.read.capacity ≤ C) →
        ∀ p ∈ placed 0 ls, maxPending + C ≤ p.2.length → ¬ Uncut (cuts 0 pieces) p) ∧
      -- in every call, what is said to be dispatched went to the handlers
      ∀ (t t' : Session σ υ) (b b' : Buffers) (ms : List Message), t.process b = .ok (t', b', ms) → Heard t ms t' := by
  intro ls
  have hw : s.Waits [] := .inl ⟨hd, hp, Nat.zero_le _⟩
  obtain ⟨last, answers, hf, hm⟩ := feed_spared hw List.not_mem_nil pieces hfit 0
  rw [List.nil_append, List.length_nil] at hm
  refine ⟨last, answers, hf, ?_, fun p _ => uncut_of_short, ?_, fun t t' b b' ms => process_heard⟩
  · rw [hm]
    congr 1
    refine spared_congr fun p _ => ?_
    rw [Uncut, List.forall_mem_cons]
    exact and_iff_right (.inl (Nat.zero_le _))
  · intro C hC p hmem hlong huncut
    have hpieces : ∀ p ∈ pieces, p.2.length ≤ C := fun q hq =>
      Nat.le_trans (hfit q hq).2.2 (Nat.le_trans (Nat.sub_le _ _) (hC q hq))
    have hend := (placed_within hmem).2
    have hlen : extent ls + _ = _ := extent_lines (pieces.flatMap (·.2))
    obtain ⟨c, hc, hlo, hhi⟩ := exists_cut hpieces 0 (p.1 + maxPending) (Nat.zero_le _) (by omega)
    have := huncut c hc
    omega

theorem space_notMem_of_none : ∀ o ∈ (none : Option Bytes), space ∉ o := fun o ho => absurd ho (Option.not_mem_none o)

def ping (n : Nat) : Message.Parts where
  origin := none
  origin_word := space_notMem_of_none
  indent := 0
  command := ofText "PING"
  command_ne := by decide
  command_plain := List.all_eq_true.mp (by decide +kernel)
  params := some (List.replicate n 'a'.toUInt8)

def vacant (capacity place : Nat) : Buffers := ⟨⟨Array.replicate capacity 0, place, place, 0⟩, ⟨#[0], 0, 0, 0⟩⟩

variable {n capacity place : Nat}

theorem ping_line (n : Nat) : (ping n).line = ofText "PING" ++ space :: List.replicate n 'a'.toUInt8 := rfl

theorem ping_length (n : Nat) : (ping n).line.length = n + 5 := by
  have hword : (ofText "PING").length = 4 := by decide
  rw [ping_line, List.length_append, List.length_cons, List.length_replicate, hword]
  omega

theorem lf_notMem_ping (n : Nat) : lf ∉ (ping n).line := by
  have hword : lf ∉ ofText "PING" := by decide
  have hspace : lf ≠ space := by decide
  have ha : lf ≠ 'a'.toUInt8 := by decide
  simp [ping_line, hword, hspace, ha]

theorem lines_ping (n : Nat) : lines ((ping n).line ++ [lf]) = ([(ping n).line], []) := by
  rw [lines_append_lf (lf_notMem_ping n), lines_of_notMem List.not_mem_nil]

theorem ofTerminated?_ping (hn : 0 < n) : Message.ofTerminated? (ping n).line = some (ping n).message := by
  obtain ⟨k, rfl⟩ := Nat.exists_eq_succ_of_ne_zero (Nat.ne_of_gt hn)
  have hlast : (ping (k + 1)).line.getLast? = some 'a'.toUInt8 := by
    rw [ping_line, List.replicate_succ', ← List.cons_append, ← List.append_assoc, List.getLast?_concat]
  have hcr : Message.dropCr (ping (k + 1)).line = (ping (k + 1)).line :=
    Message.dropCr_eq_iff.mpr (.inr ⟨rfl, hlast ▸ by decide⟩)
  rw [Message.ofTerminated?_eq (lf_notMem_ping _), hcr, Message.Parts.ofLine_line]
  rfl

theorem vacant_capacity (capacity place : Nat) : (vacant capacity place).read.capacity = capacity := Array.size_replicate

theorem vacant_fits (h : place < capacity) {piece : Bytes} (hl : piece.length ≤ capacity) :
    (vacant capacity place).read.WellFormed ∧ (vacant capacity place).read.isEmpty ∧
      piece.length ≤ (vacant capacity place).read.free := by
  have hc := vacant_capacity capacity place
  refine ⟨⟨?_, ?_, Nat.zero_le _, ?_⟩, rfl, ?_⟩
  · rwa [hc]
  · rwa [hc]
  · rw [hc]
    exact Nat.mod_eq_of_lt h
  · rwa [Ring.free, hc]

theorem spared_ping (cuts : List Nat) (hn : 0 < n) :
    (spared cuts 0 [(ping n).line]).filterMap Message.ofTerminated? =
      if Uncut cuts (0, (ping n).line) then [(ping n).message] else [] := by
  rw [spared, placed, placed, List.filter_cons]
  split
  · rename_i h
    rw [if_pos (of_decide_eq_true h), List.filter_nil, List.map_cons, List.filterMap_cons_some (ofTerminated?_ping hn)]
    rfl
  · rename_i h
    rw [if_neg (by simpa using h)]
    rfl

theorem not_uncut_of_late_end (hn : maxPending < n + 5) (b : Buffers) (rest : List (Buffers × Bytes)) :
    ¬ Uncut (cuts 0 ((b, (ping n).line) :: rest)) (0, (ping n).line) := by
  intro h
  have hend := h (0 + (ping n).line.length) (List.mem_cons_of_mem _ List.mem_cons_self)
  rw [ping_length] at hend
  omega

theorem feed_drops_cut_lines_of_late_end :
    ∃ last answers, (Session.create ⟨⟨"host", 6667⟩, ⟨["nick"], "name", "login"⟩, [], {}, {}⟩ () : Session Unit Unit).feed
        [(vacant 8192 0, (ping 5000).line), (vacant 8192 0, [lf])] = .ok (last, answers) ∧
      answers.flatMap (·.2) = [] := by
  have hfit : ∀ p ∈ [(vacant 8192 0, (ping 5000).line), (vacant 8192 0, [lf])],
      p.1.read.WellFormed ∧ p.1.read.isEmpty ∧ p.2.length ≤ p.1.read.free := by
    rw [List.forall_mem_cons, List.forall_mem_singleton]
    exact ⟨vacant_fits (by decide) (by rw [ping_length]; decide), vacant_fits (by decide) (by decide)⟩
  obtain ⟨last, answers, hf, hm, -⟩ := feed_drops_cut_lines
    (Session.create ⟨⟨"host", 6667⟩, ⟨["nick"], "name", "login"⟩, [], {}, {}⟩ () : Session Unit Unit) rfl rfl _ hfit
  refine ⟨last, answers, hf, hm.trans ?_⟩
  rw [List.flatMap_cons, List.flatMap_singleton, lines_ping, spared_ping _ (by decide), if_neg]
  exact not_uncut_of_late_end (by decide) _ _

theorem feed_ping (h : place < capacity) (hn : 0 < n) (hl : n + 6 ≤ capacity) (s : Session σ υ) (hp : s.pending = [])
    (hd : s.discarding = false) :
    ∃ last answers, s.feed [(vacant capacity place, (ping n).line ++ [lf])] = .ok (last, answers) ∧
      answers.flatMap (·.2) =
        if capacity - place ≤ maxPending ∨ n + 5 < capacity - place then [(ping n).message] else [] := by
  have hlen : ((ping n).line ++ [lf]).length = n + 6 := by rw [List.length_append, ping_length]; rfl
  obtain ⟨last, answers, hf, hm⟩ := feed_spared (s := s) (.inl ⟨hd, hp, Nat.zero_le _⟩) List.not_mem_nil
    [(vacant capacity place, (ping n).line ++ [lf])]
    (List.forall_mem_singleton.mpr (vacant_fits h (hlen ▸ hl))) 0
  refine ⟨last, answers, hf, hm.trans ?_⟩
  have hat : (vacant capacity place).read.head = place := rfl
  rw [List.nil_append, List.flatMap_singleton, lines_ping, spared_ping _ hn]
  simp only [Uncut, cuts, List.forall_mem_cons, hlen, vacant_capacity, hat, ping_length, List.length_nil, List.not_mem_nil,
    false_implies, implies_true, and_true]
  congr 1
  apply propext
  omega

theorem long_line_is_dispatched_uncut :
    maxPending < (ping 5000).line.length ∧
      (∃ last answers, (Session.create ⟨⟨"host", 6667⟩, ⟨["nick"], "name", "login"⟩, [], {}, {}⟩ () :
          Session Unit Unit).feed [(vacant 8192 0, (ping 5000).line ++ [lf])] = .ok (last, answers) ∧
        answers.flatMap (·.2) = [(ping 5000).message]) ∧
      ∃ last answers, (Session.create ⟨⟨"host", 6667⟩, ⟨["nick"], "name", "login"⟩, [], {}, {}⟩ () :
          Session Unit Unit).feed [(vacant 8192 3192, (ping 5000).line ++ [lf])] = .ok (last, answers) ∧
        answers.flatMap (·.2) = [] := by
  refine ⟨?_, feed_ping (by decide) (by decide) (by decide) _ rfl rfl,
    feed_ping (by decide) (by decide) (by decide) _ rfl rfl⟩
  rw [ping_length]
  decide

end Session

end IrcLink
