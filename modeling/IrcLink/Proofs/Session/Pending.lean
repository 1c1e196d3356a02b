import IrcLink.Proofs.Message.Grammar
import IrcLink.Proofs.Ring.Rounds
import IrcLink.Proofs.Session.Framing

/-!
What is kept of the text that was received. Between calls it is the beginning of one line, and never a long one, whatever
was sent; during a call it is longer by no more than the storage of the ring. Looking through it comes to an end, since
every pass takes something off.
-/

namespace IrcLink.Session

open Bytes

variable {σ υ : Type} {s t u : Session σ υ} {read read' : Ring} {ms : List Message} {kept : Bytes}

structure Tidy (s : Session σ υ) : Prop where
  lf_notMem : lf ∉ s.pending
  length_le : s.pending.length ≤ maxPending
  dropped : s.discarding = true → s.pending = []

theorem Tidy.fresh (hp : s.pending = []) : s.Tidy :=
  ⟨by rw [hp]; exact List.not_mem_nil, by rw [hp]; exact Nat.zero_le _, fun _ => hp⟩

theorem resume_discarding (h : s.resume = some t) : t.discarding = false := by
  unfold resume at h
  split at h
  · obtain ⟨_, -, rfl⟩ := Option.map_eq_some_iff.mp h
    rfl
  · rename_i hd
    obtain rfl := Option.some.inj h
    exact Bool.eq_false_iff.mpr hd

theorem scan_tidy (h : s.scan = .ok (.rest t)) : t.Tidy ∧ t.pending.length ≤ s.pending.length := by
  unfold scan at h
  split at h
  · obtain rfl := Scan.rest.inj (Except.ok.inj h)
    exact ⟨.fresh rfl, Nat.zero_le _⟩
  · rename_i s' hr
    have hle := resume_length hr
    split at h
    · obtain ⟨_, -, h⟩ := Fault.map_eq_ok.mp h
      exact absurd h nofun
    · obtain ⟨_, -, h⟩ := Fault.map_eq_ok.mp h
      exact absurd h nofun
    · rename_i hp
      split at h
      · obtain rfl := Scan.rest.inj (Except.ok.inj h)
        exact ⟨.fresh rfl, Nat.zero_le _⟩
      · rename_i hl
        obtain rfl := Scan.rest.inj (Except.ok.inj h)
        refine ⟨⟨Message.parse_eq_incomplete_iff.mp hp, by omega, fun hd => ?_⟩, hle⟩
        rw [resume_discarding hr] at hd
        exact absurd hd nofun

theorem scanAll_tidy (h : s.scanAll = .ok (t, ms)) : t.Tidy := by
  induction s using scanAll.induct generalizing t ms with
  | case1 s f hs => rw [scanAll, hs] at h; simp at h
  | case2 s u hs =>
    rw [scanAll_of_rest hs] at h
    obtain ⟨rfl, -⟩ := Prod.mk.inj (Except.ok.inj h)
    exact (scan_tidy hs).1
  | case3 s u m hs ih =>
    rw [scanAll_of_line hs] at h
    obtain ⟨⟨last, more⟩, ha, hp⟩ := Fault.map_eq_ok.mp h
    obtain ⟨rfl, -⟩ := Prod.mk.inj hp
    exact ih ha

def ScanPass (s t : Session σ υ) : Prop := ∃ m, s.scan = .ok (.line t m)

def AtRest (s : Session σ υ) : Prop := ∃ t, s.scan = .ok (.rest t)

theorem scanAll_rounds (s : Session σ υ) :
    ∃ n u t ms, n ≤ s.pending.length ∧ Rounds ScanPass AtRest n s u ∧ u.scan = .ok (.rest t) ∧
      s.scanAll = .ok (t, ms) := by
  induction s using scanAll.induct with
  | case1 s f hs =>
    obtain ⟨r, hr⟩ := scan_isOk s
    rw [hr] at hs
    simp at hs
  | case2 s t hs => exact ⟨0, s, t, [], Nat.zero_le _, .done ⟨t, hs⟩, hs, scanAll_of_rest hs⟩
  | case3 s s' m hs ih =>
    obtain ⟨n, u, t, ms, hn, hr, hu, ha⟩ := ih
    have hlt := scan_length hs
    refine ⟨n + 1, u, t, m.toList ++ ms, by omega, .round ⟨m, hs⟩ hr, hu, ?_⟩
    rw [scanAll_of_line hs, ha]
    rfl

/-- What is kept at one moment or another while it is looked through. -/
inductive Scanning : Session σ υ → Bytes → Prop
  | held (s : Session σ υ) : Scanning s s.pending
  | resumed {s t : Session σ υ} (h : s.resume = some t) : Scanning s t.pending
  | rest {s t : Session σ υ} (h : s.scan = .ok (.rest t)) : Scanning s t.pending
  | line {s t : Session σ υ} {kept : Bytes} (h : ScanPass s t) (hk : Scanning t kept) : Scanning s kept

theorem Scanning.length_le (h : s.Scanning kept) : kept.length ≤ s.pending.length := by
  induction h with
  | held s => exact Nat.le_refl _
  | resumed h => exact resume_length h
  | rest h => exact (scan_tidy h).2
  | line h _ ih =>
    obtain ⟨m, hs⟩ := h
    exact Nat.le_trans ih (Nat.le_of_lt (scan_length hs))

theorem processSpan_eq (h : read.readSpan ≠ []) :
    ∃ t ms, { s with pending := s.pending ++ read.readSpan }.scanAll = .ok (t, ms) ∧
      s.processSpan read = .ok (some (t, read.advanceHead read.readSpanLength, ms)) := by
  obtain ⟨t, ms, hs⟩ := scanAll_isOk { s with pending := s.pending ++ read.readSpan }
  refine ⟨t, ms, hs, ?_⟩
  rw [processSpan]
  dsimp only
  rw [if_neg h, Ring.readSpan_length, Ring.consume_eq_ok (Nat.le_refl _)]
  dsimp only [bind, Except.bind]
  rw [hs]
  rfl

theorem processSpan_eq_some (h : s.processSpan read = .ok (some (t, read', ms))) :
    read.readSpan ≠ [] ∧ { s with pending := s.pending ++ read.readSpan }.scanAll = .ok (t, ms) ∧
      read' = read.advanceHead read.readSpanLength := by
  by_cases hne : read.readSpan = []
  · rw [processSpan] at h
    dsimp only at h
    rw [if_pos hne] at h
    simp at h
  · obtain ⟨u, more, hs, hp⟩ := @processSpan_eq _ _ s _ hne
    rw [h] at hp
    obtain ⟨rfl, rfl, rfl⟩ := by simpa using hp
    exact ⟨hne, hs, rfl⟩

theorem processAll_tidy (hs : s.Tidy) (h : s.processAll read = .ok (t, read', ms)) : t.Tidy := by
  induction s, read using processAll.induct generalizing t read' ms with
  | case1 s read f hp => rw [processAll, hp] at h; simp at h
  | case2 s read hp =>
    rw [processAll, hp] at h
    obtain ⟨rfl, -, -⟩ := by simpa using h
    exact hs
  | case3 s read u read₁ first hp ih =>
    rw [processAll, hp] at h
    obtain ⟨⟨last, ring, more⟩, ha, hp'⟩ := Fault.map_eq_ok.mp h
    obtain ⟨rfl, -, -⟩ := by simpa using hp'
    exact ih (scanAll_tidy (processSpan_eq_some hp).2.1) ha

theorem process_tidy {b b' : Buffers} (hs : s.Tidy) (h : s.process b = .ok (t, b', ms)) : t.Tidy := by
  obtain ⟨⟨u, read, first⟩, ha, h⟩ := Fault.bind_eq_ok.mp h
  obtain ⟨rfl, -, rfl⟩ := by simpa [pure, Except.pure] using h
  obtain ⟨notices, hn⟩ := u.writeOutbox_session b.write
  obtain ⟨hlf, hle, hd⟩ := processAll_tidy hs ha
  rw [hn]
  exact ⟨hlf, hle, hd⟩

/-- What is kept at one moment or another while a session goes through a ring: what it comes with, and what it has when
a span was added to that. -/
inductive Processing : Session σ υ → Ring → Bytes → Prop
  | held (s : Session σ υ) (read : Ring) : Processing s read s.pending
  | gathered {s : Session σ υ} {read : Ring} {kept : Bytes} (hne : read.readSpan ≠ [])
      (hk : { s with pending := s.pending ++ read.readSpan }.Scanning kept) : Processing s read kept
  | next {s t : Session σ υ} {read read' : Ring} {ms : List Message} {kept : Bytes}
      (h : s.processSpan read = .ok (some (t, read', ms))) (hk : Processing t read' kept) : Processing s read kept

theorem Processing.length_le (h : s.Processing read kept) (hs : s.Tidy) : kept.length ≤ maxPending + read.capacity := by
  induction h with
  | held s read =>
    have := hs.length_le
    omega
  | @gathered s read kept _ hk =>
    have hkept := hk.length_le
    have hspan : read.readSpan.length ≤ read.capacity := by
      rw [Ring.readSpan_length, Ring.readSpanLength]
      omega
    have := hs.length_le
    rw [List.length_append] at hkept
    omega
  | next h _ ih =>
    obtain ⟨-, hscan, rfl⟩ := processSpan_eq_some h
    have := ih (scanAll_tidy hscan)
    rwa [Ring.advanceHead_capacity] at this

def ProcessPass (a b : Session σ υ × Ring × List Message) : Prop :=
  ∃ ms, a.1.processSpan a.2.1 = .ok (some (b.1, b.2.1, ms)) ∧ b.2.2 = a.2.2 ++ ms

theorem processSpan_spans (h : read.WellFormed) (hp : s.processSpan read = .ok (some (t, read', ms))) :
    read'.WellFormed ∧ spansFor read'.len read'.readSpanLength < spansFor read.len read.readSpanLength := by
  obtain ⟨hne, -, rfl⟩ := processSpan_eq_some hp
  have hpos : 0 < read.readSpanLength := by
    rw [← Ring.readSpan_length]
    exact List.length_pos_iff.mpr hne
  have hmin : min read.readSpanLength read.len = read.readSpanLength := by
    rw [Ring.readSpanLength]
    omega
  refine ⟨Ring.advanceHead_wellFormed h (Nat.le_refl _), ?_⟩
  rw [Ring.advanceHead_len, Ring.readSpanLength_advanceHead h]
  have hlt := @spansFor_lt read.len read.readSpanLength (read.len - read.readSpanLength)
  rw [hmin] at hlt
  exact hlt hpos (Nat.le_refl _)

theorem processAll_rounds (h : read.WellFormed) (s : Session σ υ) (heard : List Message) :
    ∃ t read' ms n, s.processAll read = .ok (t, read', ms) ∧
      Rounds ProcessPass (·.2.1.isEmpty = true) n (s, read, heard) (t, read', heard ++ ms) := by
  induction s, read using processAll.induct generalizing heard with
  | case1 s read f hp =>
    obtain ⟨r, hr⟩ := processSpan_isOk s read
    rw [hr] at hp
    simp at hp
  | case2 s read hp =>
    have hempty : read.readSpan = [] := by
      by_contra hne
      obtain ⟨t, ms, -, hp'⟩ := @processSpan_eq _ _ s _ hne
      rw [hp] at hp'
      simp at hp'
    have hz : read.len = 0 := by
      rw [← Ring.readSpanLength_eq_zero h, ← Ring.readSpan_length, hempty, List.length_nil]
    refine ⟨s, read, [], 0, by rw [processAll, hp], ?_⟩
    rw [List.append_nil]
    exact .done (by simp [Ring.isEmpty, hz])
  | case3 s read t read' ms hp ih =>
    obtain ⟨last, ring, more, n, ha, hr⟩ := ih (processSpan_spans h hp).1 (heard ++ ms)
    rw [List.append_assoc] at hr
    refine ⟨last, ring, ms ++ more, n + 1, ?_, .round ⟨ms, hp, rfl⟩ hr⟩
    rw [processAll, hp]
    dsimp only
    rw [ha]
    rfl

theorem processAll_brief (h : read.WellFormed) (s : Session σ υ) :
    ∃ t read' ms, s.processAll read = .ok (t, read', ms) ∧
      Brief ProcessPass (·.2.1.isEmpty = true) (·.2.1.len) (s, read, []) (t, read', ms) := by
  obtain ⟨t, read', ms, n, ha, hr⟩ := processAll_rounds h s []
  refine ⟨t, read', ms, ha, ⟨n, hr⟩, fun hr => ?_, ?_⟩
  · refine hr.le_two (·.2.1.len) (·.2.1.readSpanLength) (·.2.1.WellFormed) ?_ h
    rintro a b h ⟨_, hp, -⟩
    exact processSpan_spans h hp
  · rintro a b ⟨_, hp, -⟩
    exact processSpan_len hp

inductive Incident where
  | received (b : Buffers)
  | lost

def meet (s : Session σ υ) : Incident → Except Fault (Session σ υ)
  | .received b => (s.process b).map (·.1)
  | .lost => .ok s.reset

theorem meet_tidy (hs : s.Tidy) (i : Incident) : ∃ t, s.meet i = .ok t ∧ t.Tidy := by
  cases i with
  | received b =>
    obtain ⟨t, b', ms, hp⟩ := process_isOk s b
    exact ⟨t, by rw [meet, hp]; rfl, process_tidy hs hp⟩
  | lost => exact ⟨s.reset, rfl, .fresh rfl⟩

theorem meet_all_tidy (hs : s.Tidy) (is : List Incident) : ∃ t, is.foldlM meet s = .ok t ∧ t.Tidy := by
  induction is generalizing s with
  | nil => exact ⟨s, rfl, hs⟩
  | cons i is ih =>
    obtain ⟨t, ht, htidy⟩ := meet_tidy hs i
    obtain ⟨last, hl, hlast⟩ := ih htidy
    exact ⟨last, by rw [List.foldlM_cons, ht]; exact hl, hlast⟩

theorem pending_stays_bounded (s : Session σ υ) (hp : s.pending = []) (is : List Incident) :
    ∃ t, is.foldlM meet s = .ok t ∧
      -- after every call
      (lf ∉ t.pending ∧ t.pending.length ≤ maxPending ∧ (t.discarding = true → t.pending = [])) ∧
      -- at every moment of the next one
      (∀ (read : Ring) (kept : Bytes), t.Processing read kept → kept.length ≤ maxPending + read.capacity) ∧
      -- whatever is looked through, every pass but the last takes something off, and there is a last one
      ∀ u : Session σ υ, (∀ v, ScanPass u v → v.pending.length < u.pending.length) ∧
        ∃ n v last ms, n ≤ u.pending.length ∧ Rounds ScanPass AtRest n u v ∧ v.scan = .ok (.rest last) ∧
          u.scanAll = .ok (last, ms) := by
  obtain ⟨t, ht, htidy⟩ := meet_all_tidy (.fresh hp) is
  refine ⟨t, ht, ⟨htidy.lf_notMem, htidy.length_le, htidy.dropped⟩, fun read kept h => h.length_le htidy, fun u => ?_⟩
  refine ⟨?_, scanAll_rounds u⟩
  rintro v ⟨m, hs⟩
  exact scan_length hs

def begunTwice : List Incident := [
  .received { nearTheEnd with read := (nearTheEnd.read.put (ofText "PING")).1 },
  .lost,
  .received { nearTheEnd with read := (nearTheEnd.read.put (ofText "PO")).1 }]

theorem pending_stays_bounded_across_links :
    (Session.create ⟨⟨"host", 6667⟩, ⟨["nick"], "name", "login"⟩, [], {}, {}⟩ () : Session Unit Unit).pending = [] ∧
      ∃ t, begunTwice.foldlM meet
          (Session.create ⟨⟨"host", 6667⟩, ⟨["nick"], "name", "login"⟩, [], {}, {}⟩ () : Session Unit Unit) = .ok t ∧
        lf ∉ t.pending ∧
        ∀ kept, t.Processing (nearTheEnd.read.put (ofText "NG a\r\n")).1 kept → kept.length ≤ 4102 := by
  refine ⟨rfl, ?_⟩
  obtain ⟨t, ht, ⟨hlf, -, -⟩, hduring, -⟩ := pending_stays_bounded
    (Session.create ⟨⟨"host", 6667⟩, ⟨["nick"], "name", "login"⟩, [], {}, {}⟩ () : Session Unit Unit) rfl begunTwice
  have hroom : maxPending + (nearTheEnd.read.put (ofText "NG a\r\n")).1.capacity = 4102 := by decide +kernel
  exact ⟨t, ht, hlf, fun kept h => hroom ▸ hduring _ kept h⟩

end IrcLink.Session
