import IrcLink.Session

/-!
Lines. A stream is cut at its line feeds, and a later cut of its beginning is of no account. A session that keeps the
beginning of a line takes off every line that has ended, dispatches those that are messages, and keeps the rest, unless
it has grown too long.
-/

namespace IrcLink

namespace Bytes

theorem splitAt?_of_notMem {b : UInt8} {before : Bytes} (h : b ∉ before) (after : Bytes) :
    splitAt? b (before ++ b :: after) = some (before, after) := by
  induction before with
  | nil => rw [List.nil_append, splitAt?_cons, if_pos rfl]
  | cons c rest ih =>
    obtain ⟨hc, hrest⟩ := not_or.mp (mt List.mem_cons.mpr h)
    rw [List.cons_append, splitAt?_cons, if_neg (Ne.symm hc), ih hrest]
    rfl

def lines (s : Bytes) : List Bytes × Bytes :=
  match _h : splitAt? lf s with
  | none => ([], s)
  | some (line, rest) => (line :: (lines rest).1, (lines rest).2)
termination_by s.length
decreasing_by
  all_goals
    rw [(splitAt?_eq_some _h).1, List.length_append, List.length_cons]
    omega

theorem lines_of_none {s : Bytes} (h : splitAt? lf s = none) : lines s = ([], s) := by rw [lines, h]

theorem lines_of_some {s line rest : Bytes} (h : splitAt? lf s = some (line, rest)) :
    lines s = (line :: (lines rest).1, (lines rest).2) := by rw [lines, h]

theorem lines_of_notMem {s : Bytes} (h : lf ∉ s) : lines s = ([], s) := lines_of_none (splitAt?_eq_none.mpr h)

theorem lines_append_lf {line : Bytes} (h : lf ∉ line) (rest : Bytes) :
    lines (line ++ lf :: rest) = (line :: (lines rest).1, (lines rest).2) := lines_of_some (splitAt?_of_notMem h rest)

theorem lines_join (s : Bytes) :
    (lines s).1.flatMap (· ++ [lf]) ++ (lines s).2 = s ∧ (∀ line ∈ (lines s).1, lf ∉ line) ∧ lf ∉ (lines s).2 := by
  induction s using lines.induct with
  | case1 s h =>
    rw [lines_of_none h]
    exact ⟨rfl, nofun, splitAt?_eq_none.mp h⟩
  | case2 s line rest h ih =>
    obtain ⟨hs, hline⟩ := splitAt?_eq_some h
    obtain ⟨hj, hl, ht⟩ := ih
    rw [lines_of_some h]
    refine ⟨?_, ?_, ht⟩
    · rw [List.flatMap_cons, List.append_assoc, List.append_assoc, hj, hs]
      rfl
    · intro l hm
      obtain rfl | hm := List.mem_cons.mp hm
      · exact hline
      · exact hl l hm

theorem lines_append (s more : Bytes) :
    lines (s ++ more) = ((lines s).1 ++ (lines ((lines s).2 ++ more)).1, (lines ((lines s).2 ++ more)).2) := by
  induction s using lines.induct with
  | case1 s h =>
    rw [lines_of_none h]
    rfl
  | case2 s line rest h ih =>
    obtain ⟨rfl, hline⟩ := splitAt?_eq_some h
    rw [List.append_assoc, List.cons_append, lines_append_lf hline, lines_append_lf hline, ih]
    rfl

end Bytes

open Bytes

namespace Message

theorem splitOrigin_error {line : Bytes} {e : ParseError} (h : splitOrigin line = .error e) : e = .invalid := by
  unfold splitOrigin at h
  split at h
  · simp at h
  · split at h
    · split at h
      · exact (Except.error.inj h).symm
      · simp at h
    · simp at h

theorem ofLine_error {line : Bytes} {e : ParseError} (h : ofLine line = .error e) : e = .invalid := by
  unfold ofLine at h
  cases ho : splitOrigin line with
  | error e' =>
    rw [ho] at h
    obtain rfl := Except.error.inj h
    exact splitOrigin_error ho
  | ok p =>
    rw [ho] at h
    dsimp only [bind, Except.bind] at h
    split at h
    · exact (Except.error.inj h).symm
    · split at h
      · simp at h
      · exact (Except.error.inj h).symm

theorem parse_of_splitAt? {data line rest : Bytes} (h : splitAt? lf data = some (line, rest)) :
    parse data = (ofLine (dropCr line)).map (·, line.length + 1) := by rw [parse, h]

theorem parse_of_none {data : Bytes} (h : splitAt? lf data = none) : parse data = .error .incomplete := by
  rw [parse, h]

def ofTerminated? (line : Bytes) : Option Message := (parse (line ++ [lf])).toOption.map (·.1)

theorem ofTerminated?_eq {line : Bytes} (h : lf ∉ line) : ofTerminated? line = (ofLine (dropCr line)).toOption := by
  rw [ofTerminated?, parse_of_splitAt? (splitAt?_of_notMem h [])]
  cases ofLine (dropCr line) <;> rfl

end Message

namespace Session

variable {σ υ : Type} {s t : Session σ υ}

/-- Between calls: the beginning of a line is kept, or, if it has grown too long, the line is being dropped. -/
def Waits (s : Session σ υ) (tail : Bytes) : Prop :=
  s.discarding = false ∧ s.pending = tail ∧ tail.length ≤ maxPending ∨
    s.discarding = true ∧ s.pending = [] ∧ maxPending < tail.length

/-- All lines but some of those that are too long. -/
structure Kept (lines kept : List Bytes) : Prop where
  sublist : kept.Sublist lines
  short : kept.filter (·.length ≤ maxPending) = lines.filter (·.length ≤ maxPending)

namespace Kept

variable {lines lines' kept kept' : List Bytes}

theorem refl (lines : List Bytes) : Kept lines lines := ⟨.refl _, rfl⟩

theorem append (h : Kept lines kept) (h' : Kept lines' kept') : Kept (lines ++ lines') (kept ++ kept') :=
  ⟨h.sublist.append h'.sublist, by rw [List.filter_append, List.filter_append, h.short, h'.short]⟩

theorem drop {line : Bytes} (hl : maxPending < line.length) (h : Kept lines kept) : Kept (line :: lines) kept := by
  refine ⟨h.sublist.cons line, ?_⟩
  rw [List.filter_cons_of_neg, h.short]
  simpa using hl

theorem eq_of_short (h : Kept lines kept) (hl : ∀ line ∈ lines, line.length ≤ maxPending) : kept = lines := by
  have hshort := h.short
  rw [List.filter_eq_self.mpr, List.filter_eq_self.mpr] at hshort
  · exact hshort
  · simpa using hl
  · intro line hm
    simpa using hl line (h.sublist.subset hm)

end Kept

theorem skip_line (line rest : Bytes) : skip (line.length + 1) (line ++ lf :: rest) = .ok rest := by
  have hl : ((line ++ lf :: rest).take (line.length + 1)).length = line.length + 1 := by
    rw [List.length_take, List.length_append, List.length_cons]
    omega
  rw [skip, if_pos hl, ← List.drop_drop, List.drop_left]
  rfl

theorem scan_line (hd : s.discarding = false) {line rest : Bytes} (hs : splitAt? lf s.pending = some (line, rest)) :
    s.scan = .ok (.line { (Message.ofTerminated? line).elim s s.dispatch with pending := rest }
      (Message.ofTerminated? line)) := by
  obtain ⟨hp, hline⟩ := splitAt?_eq_some hs
  have hr : s.resume = some s := by rw [resume, if_neg (by simp [hd])]
  have hk : skip (line.length + 1) s.pending = .ok rest := by rw [hp, skip_line]
  rw [scan, hr, Message.ofTerminated?_eq hline]
  dsimp only
  rw [Message.parse_of_splitAt? hs]
  cases hm : Message.ofLine (Message.dropCr line) with
  | ok m =>
    dsimp only [Except.map]
    rw [hk]
    rfl
  | error e =>
    obtain rfl := Message.ofLine_error hm
    dsimp only [Except.map]
    rw [firstLineLength, hs]
    dsimp only
    rw [hk]
    rfl

theorem scan_rest (hd : s.discarding = false) (hs : lf ∉ s.pending) :
    ∃ t, s.scan = .ok (.rest t) ∧ t.Waits s.pending := by
  have hr : s.resume = some s := by rw [resume, if_neg (by simp [hd])]
  rw [scan, hr]
  dsimp only
  rw [Message.parse_of_none (splitAt?_eq_none.mpr hs)]
  dsimp only
  by_cases hl : maxPending < s.pending.length
  · rw [if_pos hl]
    exact ⟨_, rfl, .inr ⟨rfl, rfl, hl⟩⟩
  · rw [if_neg hl]
    exact ⟨s, rfl, .inl ⟨hd, rfl, by omega⟩⟩

theorem scan_discarding_line (hd : s.discarding = true) {line rest : Bytes}
    (hs : splitAt? lf s.pending = some (line, rest)) :
    s.scan = { s with pending := rest, discarding := false }.scan := by
  have hr : s.resume = some { s with pending := rest, discarding := false } := by rw [resume, if_pos hd, hs]; rfl
  rw [scan, scan, hr]
  rfl

theorem scan_discarding_rest (hd : s.discarding = true) (hs : lf ∉ s.pending) :
    s.scan = .ok (.rest { s with pending := [] }) := by
  rw [scan, resume, if_pos hd, splitAt?_eq_none.mpr hs]
  rfl

theorem scan_isOk (s : Session σ υ) : ∃ r, s.scan = .ok r := by
  have heeding (t : Session σ υ) (hd : t.discarding = false) : ∃ r, t.scan = .ok r := by
    cases hs : splitAt? lf t.pending with
    | some p => exact ⟨_, scan_line hd hs⟩
    | none =>
      obtain ⟨u, hu, -⟩ := scan_rest hd (splitAt?_eq_none.mp hs)
      exact ⟨_, hu⟩
  cases hd : s.discarding with
  | false => exact heeding s hd
  | true =>
    cases hs : splitAt? lf s.pending with
    | some p =>
      rw [scan_discarding_line hd hs]
      exact heeding _ rfl
    | none => exact ⟨_, scan_discarding_rest hd (splitAt?_eq_none.mp hs)⟩

theorem scanAll_of_rest (h : s.scan = .ok (.rest t)) : s.scanAll = .ok (t, []) := by rw [scanAll, h]

theorem scanAll_of_line {m : Option Message} (h : s.scan = .ok (.line t m)) :
    s.scanAll = t.scanAll.map fun (last, ms) => (last, m.toList ++ ms) := by rw [scanAll, h]

theorem scanAll_isOk (s : Session σ υ) : ∃ t ms, s.scanAll = .ok (t, ms) := by
  induction s using scanAll.induct with
  | case1 s f hs =>
    obtain ⟨r, hr⟩ := scan_isOk s
    rw [hr] at hs
    simp at hs
  | case2 s t hs => exact ⟨t, [], scanAll_of_rest hs⟩
  | case3 s t m hs ih =>
    obtain ⟨last, ms, hl⟩ := ih
    exact ⟨last, m.toList ++ ms, by rw [scanAll_of_line hs, hl]; rfl⟩

theorem scanAll_of_scan_eq (h : s.scan = t.scan) : s.scanAll = t.scanAll := by
  cases ht : t.scan with
  | error f =>
    rw [ht] at h
    rw [scanAll, h, scanAll, ht]
  | ok r =>
    rw [ht] at h
    cases r with
    | line u m => rw [scanAll_of_line h, scanAll_of_line ht]
    | rest u => rw [scanAll_of_rest h, scanAll_of_rest ht]

theorem elim_dispatch_discarding (s : Session σ υ) (m : Option Message) :
    (m.elim s s.dispatch).discarding = s.discarding := by cases m <;> rfl

theorem scanAll_lines (hd : s.discarding = false) :
    ∃ t, s.scanAll = .ok (t, (lines s.pending).1.filterMap Message.ofTerminated?) ∧ t.Waits (lines s.pending).2 := by
  induction hp : s.pending using lines.induct generalizing s with
  | case1 p h =>
    subst hp
    obtain ⟨t, ht, hw⟩ := scan_rest hd (splitAt?_eq_none.mp h)
    rw [lines_of_none h]
    exact ⟨t, scanAll_of_rest ht, hw⟩
  | case2 p line rest h ih =>
    subst hp
    have hline := scan_line hd h
    obtain ⟨t, ht, hw⟩ := @ih { (Message.ofTerminated? line).elim s s.dispatch with pending := rest }
      ((elim_dispatch_discarding s _).trans hd) rfl
    rw [lines_of_some h]
    refine ⟨t, ?_, hw⟩
    rw [scanAll_of_line hline, ht]
    cases hm : Message.ofTerminated? line with
    | none =>
      rw [List.filterMap_cons_none hm]
      rfl
    | some m =>
      rw [List.filterMap_cons_some hm]
      rfl

/-- The lines that are looked at when more has come after this: not the first one, if what is there of it is too long
already. -/
def heeded (tail : Bytes) (lines : List Bytes) : List Bytes := if tail.length ≤ maxPending then lines else lines.tail

theorem kept_heeded {tail : Bytes} (ht : lf ∉ tail) (more : Bytes) :
    Kept (lines (tail ++ more)).1 (heeded tail (lines (tail ++ more)).1) := by
  unfold heeded
  split
  · exact .refl _
  · rename_i hl
    cases hs : splitAt? lf more with
    | none =>
      rw [lines_of_notMem fun hm => (List.mem_append.mp hm).elim ht (splitAt?_eq_none.mp hs)]
      exact .refl []
    | some p =>
      obtain ⟨rfl, hline⟩ := splitAt?_eq_some hs
      rw [← List.append_assoc, lines_append_lf fun hm => (List.mem_append.mp hm).elim ht hline]
      refine .drop ?_ (.refl _)
      rw [List.length_append]
      omega

theorem scanAll_more {tail : Bytes} (hw : s.Waits tail) (ht : lf ∉ tail) (more : Bytes) :
    ∃ t, { s with pending := s.pending ++ more }.scanAll =
        .ok (t, (heeded tail (lines (tail ++ more)).1).filterMap Message.ofTerminated?) ∧
      t.Waits (lines (tail ++ more)).2 := by
  obtain ⟨hd, rfl, hl⟩ | ⟨hd, hp, hl⟩ := hw
  · rw [heeded, if_pos hl]
    exact @scanAll_lines _ _ { s with pending := s.pending ++ more } hd
  · rw [heeded, if_neg (by omega), hp, List.nil_append]
    cases hs : splitAt? lf more with
    | none =>
      have hmore : lf ∉ more := splitAt?_eq_none.mp hs
      have hscan := @scan_discarding_rest _ _ { s with pending := more } hd hmore
      rw [lines_of_notMem fun hm => (List.mem_append.mp hm).elim ht hmore]
      refine ⟨_, scanAll_of_rest hscan, .inr ⟨hd, rfl, ?_⟩⟩
      rw [List.length_append]
      omega
    | some p =>
      obtain ⟨line, rest⟩ := p
      obtain ⟨rfl, hline⟩ := splitAt?_eq_some hs
      have hscan := @scan_discarding_line _ _ { s with pending := line ++ lf :: rest } hd _ _ hs
      rw [← List.append_assoc, lines_append_lf fun hm => (List.mem_append.mp hm).elim ht hline]
      obtain ⟨t, ht, htw⟩ := @scanAll_lines _ _ { s with pending := rest, discarding := false } rfl
      exact ⟨t, (scanAll_of_scan_eq hscan).trans ht, htw⟩

end Session

end IrcLink
