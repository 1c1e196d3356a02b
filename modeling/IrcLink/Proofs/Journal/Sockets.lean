import IrcLink.Proofs.Journal.Traffic

/-!
The sockets of a journal: which were opened and closed, and under which token and for what each is watched. An engine that keeps to one socket at a
time has it in custody from its opening to its closing; a journal of such an engine is one of `Custody`.
-/

namespace IrcLink

structure Watch where
  token : Nat
  interest : Interest
  deriving Repr, DecidableEq

namespace Event

def watch? (s : Socket) : Event → Option (Option Watch)
  | .call (.register s' token i) (.ok ()) => if s' = s then some (some ⟨token, i⟩) else none
  | .call (.reregister s' token i) (.ok ()) => if s' = s then some (some ⟨token, i⟩) else none
  | .call (.deregister s') (.ok ()) => if s' = s then some none else none
  | .call (.close s') _ => if s' = s then some none else none
  | _ => none

def touches : Event → Bool
  | .call (.openSocket _) (.ok _) => true
  | .call (.register _ _ _) (.ok _) => true
  | .call (.reregister _ _ _) (.ok _) => true
  | .call (.deregister _) (.ok _) => true
  | .call (.close _) _ => true
  | _ => false

variable {e : Event}

theorem opened_of_touches (h : e.touches = false) : e.opened? = none := by
  unfold opened?
  split
  · simp [touches] at h
  · rfl

theorem closed_of_touches (h : e.touches = false) : e.closed? = none := by
  unfold closed?
  split
  · simp [touches] at h
  · rfl

theorem watch_of_touches (s : Socket) (h : e.touches = false) : e.watch? s = none := by
  unfold watch?
  split
  all_goals first | rfl | simp [touches] at h

theorem touches_of_foreign (h : e.isForeign = true) : e.touches = false := by
  unfold touches
  split
  all_goals first | rfl | simp [isForeign] at h

theorem touches_of_stream {s : Socket} (h : e.stream? = some s) : e.touches = false := by
  unfold touches
  split
  all_goals first | rfl | simp [stream?] at h

end Event

namespace Journal

variable {j : Journal} {x : Entry} {s : Socket}

def opened (j : Journal) : List Socket := j.filterMap (·.event.opened?)

def closed (j : Journal) : List Socket := j.filterMap (·.event.closed?)

theorem opened_snoc (j : Journal) (x : Entry) : (j ++ [x]).opened = j.opened ++ x.event.opened?.toList :=
  filterMap_snoc Event.opened? j x

theorem closed_snoc (j : Journal) (x : Entry) : (j ++ [x]).closed = j.closed ++ x.event.closed?.toList :=
  filterMap_snoc Event.closed? j x

def watched? (s : Socket) (j : Journal) : Option Watch :=
  j.foldl (fun i x => (x.event.watch? s).getD i) none

theorem watched_snoc (j : Journal) (x : Entry) : watched? s (j ++ [x]) = (x.event.watch? s).getD (watched? s j) := by
  rw [watched?, List.foldl_append]
  rfl

theorem watched_append {seg : Journal} (h : ∀ x ∈ seg, x.event.watch? s = none) : watched? s (j ++ seg) = watched? s j := by
  induction seg generalizing j with
  | nil => rw [List.append_nil]
  | cons x seg ih =>
    rw [List.append_cons, ih fun y hy => h y (List.mem_cons_of_mem _ hy), watched_snoc, h x List.mem_cons_self]
    rfl

theorem openSockets_snoc_opened (h : x.event.opened? = some s) : (j ++ [x]).openSockets = j.openSockets ++ [s] := by
  simp [openSockets, List.foldl_append, h]

theorem openSockets_snoc_closed (ho : x.event.opened? = none) (hc : x.event.closed? = some s) :
    (j ++ [x]).openSockets = j.openSockets.erase s := by
  simp [openSockets, List.foldl_append, ho, hc]

theorem openSockets_snoc_other (ho : x.event.opened? = none) (hc : x.event.closed? = none) :
    (j ++ [x]).openSockets = j.openSockets := by
  simp [openSockets, List.foldl_append, ho, hc]

/-- What is in custody after a journal: no socket, or this one, which is watched under the token of sockets or not. -/
inductive Custody : Journal → Option (Socket × Bool) → Prop
  | start : Custody [] none
  | other {j : Journal} {x : Entry} {kept : Option (Socket × Bool)} (h : Custody j kept) (hx : x.event.touches = false) :
      Custody (j ++ [x]) kept
  | opens {j : Journal} {x : Entry} {f : Family} {s : Socket} (h : Custody j none)
      (hx : x.event = .call (.openSocket f) (.ok s)) : Custody (j ++ [x]) (some (s, false))
  | watches {j : Journal} {x : Entry} {s : Socket} {i : Interest} {watched : Bool} (h : Custody j (some (s, watched)))
      (hx : x.event = .call (.register s socketToken i) (.ok ()) ∨
        x.event = .call (.reregister s socketToken i) (.ok ())) :
      Custody (j ++ [x]) (some (s, true))
  | unwatches {j : Journal} {x : Entry} {s : Socket} {watched : Bool} (h : Custody j (some (s, watched)))
      (hx : x.event = .call (.deregister s) (.ok ())) : Custody (j ++ [x]) (some (s, false))
  | closes {j : Journal} {x : Entry} {s : Socket} {watched : Bool} (h : Custody j (some (s, watched)))
      (hx : x.event = .call (.close s) ()) : Custody (j ++ [x]) none

namespace Custody

variable {kept : Option (Socket × Bool)}

theorem append (h : Custody j kept) {seg : Journal} (hseg : ∀ x ∈ seg, x.event.touches = false) :
    Custody (j ++ seg) kept := by
  induction seg generalizing j with
  | nil => rwa [List.append_nil]
  | cons x seg ih =>
    rw [List.append_cons]
    exact ih (h.other (hseg x List.mem_cons_self)) fun y hy => hseg y (List.mem_cons_of_mem _ hy)

theorem openSockets_eq (h : Custody j kept) : j.openSockets = (kept.map Prod.fst).toList := by
  induction h with
  | start => rfl
  | other _ hx ih => rwa [openSockets_snoc_other (Event.opened_of_touches hx) (Event.closed_of_touches hx)]
  | opens _ hx ih =>
    rw [openSockets_snoc_opened (by rw [hx]; rfl), ih]
    rfl
  | watches _ hx ih =>
    obtain hx | hx := hx
    · rwa [openSockets_snoc_other (by rw [hx]; rfl) (by rw [hx]; rfl)]
    · rwa [openSockets_snoc_other (by rw [hx]; rfl) (by rw [hx]; rfl)]
  | unwatches _ hx ih => rwa [openSockets_snoc_other (by rw [hx]; rfl) (by rw [hx]; rfl)]
  | closes _ hx ih =>
    rw [openSockets_snoc_closed (by rw [hx]; rfl) (by rw [hx]; rfl), ih]
    exact List.erase_cons_head _ _

theorem opened_length (h : Custody j kept) : j.opened.length = j.closed.length + kept.toList.length := by
  induction h with
  | start => rfl
  | @other j x _ _ hx ih =>
    rw [opened_snoc, closed_snoc, Event.opened_of_touches hx, Event.closed_of_touches hx]
    simpa using ih
  | @opens j x _ _ _ hx ih =>
    rw [opened_snoc, closed_snoc, hx]
    simpa [Event.opened?, Event.closed?] using ih
  | @watches j x _ _ _ _ hx ih =>
    obtain hx | hx := hx
    all_goals
      rw [opened_snoc, closed_snoc, hx]
      simpa [Event.opened?, Event.closed?] using ih
  | @unwatches j x _ _ _ hx ih =>
    rw [opened_snoc, closed_snoc, hx]
    simpa [Event.opened?, Event.closed?] using ih
  | @closes j x _ _ _ hx ih =>
    rw [opened_snoc, closed_snoc, hx]
    simpa [Event.opened?, Event.closed?] using ih

theorem watched_eq (h : Custody j kept) (s : Socket) :
    (watched? s j).map Watch.token = if kept = some (s, true) then some socketToken else none := by
  induction h with
  | start => simp [watched?]
  | other _ hx ih => rwa [watched_snoc, Event.watch_of_touches s hx]
  | @opens j x f s' _ hx ih =>
    rw [watched_snoc, hx]
    simpa [Event.watch?] using ih
  | @watches j x s' i watched _ hx ih =>
    have hwatch : x.event.watch? s = if s' = s then some (some ⟨socketToken, i⟩) else none := by
      obtain hx | hx := hx
      all_goals
        rw [hx]
        rfl
    rw [watched_snoc, hwatch]
    by_cases hs : s' = s
    · simp [hs]
    · simpa [hs] using ih
  | @unwatches j x s' watched _ hx ih =>
    rw [watched_snoc, hx]
    by_cases hs : s' = s
    · simp [Event.watch?, hs]
    · simpa [Event.watch?, hs] using ih
  | @closes j x s' watched _ hx ih =>
    rw [watched_snoc, hx]
    by_cases hs : s' = s
    · simp [Event.watch?, hs]
    · simpa [Event.watch?, hs] using ih

theorem of_isPrefix (h : Custody j kept) {before : Journal} (hb : before <+: j) : ∃ kept', Custody before kept' := by
  have snoc {j : Journal} {x : Entry} {kept : Option (Socket × Bool)} (h : Custody (j ++ [x]) kept)
      (ih : before <+: j → ∃ kept', Custody before kept') (hb : before <+: j ++ [x]) : ∃ kept', Custody before kept' := by
    obtain rfl | hb := List.prefix_concat_iff.mp hb
    · exact ⟨kept, h⟩
    · exact ih hb
  induction h with
  | start => exact ⟨none, List.prefix_nil.mp hb ▸ .start⟩
  | other h hx ih => exact snoc (h.other hx) ih hb
  | opens h hx ih => exact snoc (h.opens hx) ih hb
  | watches h hx ih => exact snoc (h.watches hx) ih hb
  | unwatches h hx ih => exact snoc (h.unwatches hx) ih hb
  | closes h hx ih => exact snoc (h.closes hx) ih hb

theorem length_openSockets_le (h : Custody j kept) {before : Journal} (hb : before <+: j) :
    before.openSockets.length ≤ 1 := by
  obtain ⟨kept', h'⟩ := h.of_isPrefix hb
  rw [h'.openSockets_eq]
  cases kept' <;> simp

end Custody

end Journal

namespace World

variable {ω : Type} {S : System ω} {start w w' : World ω} {s : Socket} {kept : Option (Socket × Bool)}

theorem Only.watched_eq (h : Only (·.watch? s = none) w w') : w'.journal.watched? s = w.journal.watched? s := by
  obtain ⟨seg, hj, hn⟩ := h.entries fun _ he => Event.watch_of_touches s (Event.touches_of_foreign he)
  rw [hj, Journal.watched_append hn]

theorem watched_reregister {token : Nat} {i : Interest} (h : w.call S (.reregister s token i) = (.ok (), w')) :
    w'.journal.watched? s = some ⟨token, i⟩ := by
  obtain ⟨ha, rfl⟩ := Prod.mk.inj h
  simp [record, Journal.watched?, List.foldl_append, ha, Event.watch?]

def Keeps (start w : World ω) (kept : Option (Socket × Bool)) : Prop :=
  ∃ seg : Journal, w.journal = start.journal ++ seg ∧ seg.Custody kept

namespace Keeps

theorem refl (w : World ω) : w.Keeps w none := ⟨[], (List.append_nil _).symm, .start⟩

theorem only (h : start.Keeps w kept) (hw : w.Only (·.touches = false) w') : start.Keeps w' kept := by
  obtain ⟨seg, hj, hc⟩ := h
  obtain ⟨seg', hj', hn⟩ := hw.entries fun _ => Event.touches_of_foreign
  exact ⟨seg ++ seg', by rw [hj', hj, List.append_assoc], hc.append hn⟩

theorem call {kept' : Option (Socket × Bool)} (h : start.Keeps w kept) {c : Call}
    (hx : ∀ {j : Journal} {x : Entry}, j.Custody kept → x.event = .call c (w.call S c).1 → (j ++ [x]).Custody kept') :
    start.Keeps (w.call S c).2 kept' := by
  have hl : start.Keeps (w.letOthersAct S (some c)) kept := h.only (.of_does_nil (letOthersAct_does S w (some c)))
  obtain ⟨seg, hj, hc⟩ := hl
  let x : Entry := ⟨S.time (S.answer c (w.letOthersAct S (some c)).os).2, .call c (w.call S c).1⟩
  have hcall : (w.call S c).2.journal = (w.letOthersAct S (some c)).journal ++ [x] := rfl
  exact ⟨seg ++ [x], by rw [hcall, hj, List.append_assoc], hx hc rfl⟩

theorem idle (h : start.Keeps w kept) {c : Call} (hx : Event.touches (.call c (w.call S c).1) = false) :
    start.Keeps (w.call S c).2 kept :=
  h.call fun hc he => hc.other (by rw [he]; exact hx)

end Keeps

variable {watched : Bool}

theorem close_keeps (h : start.Keeps w (some (s, watched))) : start.Keeps (w.close S s) none :=
  h.call fun hc he => hc.closes he

theorem abandon_keeps (h : start.Keeps w (some (s, watched))) : start.Keeps (w.abandon S s) none := by
  cases ha : (w.call S (.deregister s)).1 with
  | ok =>
    have hd : start.Keeps (w.call S (.deregister s)).2 (some (s, false)) := h.call fun hc he => hc.unwatches (by rw [he, ha])
    exact close_keeps hd
  | error code =>
    have hd : start.Keeps (w.call S (.deregister s)).2 (some (s, watched)) := h.idle (by rw [ha]; rfl)
    exact close_keeps hd

theorem beginConnect_keeps (h : start.Keeps w (some (s, false))) (a : SocketAddress) :
    start.Keeps (w.beginConnect S s a).2 ((w.beginConnect S s a).1.toOption.map (·, false)) := by
  have hc : start.Keeps (w.call S (.connect s a)).2 (some (s, false)) := h.idle rfl
  unfold beginConnect
  split
  all_goals
    rename_i he
    rw [he] at hc
  · exact hc
  · exact close_keeps hc
  · exact close_keeps hc

theorem setOptions_keeps (h : start.Keeps w (some (s, false))) (noDelay : Bool) :
    start.Keeps (w.setOptions S s noDelay).2 (some (s, false)) := by
  have hb : start.Keeps (w.call S (.setNonBlocking s)).2 (some (s, false)) := h.idle rfl
  unfold setOptions
  split
  all_goals
    rename_i he
    rw [he] at hb
  · exact hb
  · cases noDelay
    · exact hb
    · exact hb.idle (c := .setNoDelay s) rfl

theorem dial_keeps (h : start.Keeps w none) (noDelay : Bool) (a : SocketAddress) :
    start.Keeps (w.dial S noDelay a).2 ((w.dial S noDelay a).1.toOption.map (·, false)) := by
  have hr : start.Keeps (w.record S (.dialled a)) none := h.only (.of_does (record_does S w rfl) rfl)
  unfold dial
  split
  · rename_i code w' he
    have ho : start.Keeps ((w.record S (.dialled a)).call S (.openSocket a.family)).2 none := hr.idle (by rw [he]; rfl)
    rw [he] at ho
    exact ho
  · rename_i s w' he
    have ho : start.Keeps ((w.record S (.dialled a)).call S (.openSocket a.family)).2 (some (s, false)) :=
      hr.call fun hc hx => hc.opens (by rw [hx, he])
    rw [he] at ho
    have hd := setOptions_keeps (S := S) ho noDelay
    split
    all_goals
      rename_i hn
      rw [hn] at hd
    · exact close_keeps hd
    · exact beginConnect_keeps hd a

theorem dialWatched_keeps (h : start.Keeps w none) (noDelay : Bool) (a : SocketAddress) :
    start.Keeps (w.dialWatched S noDelay a).2 ((w.dialWatched S noDelay a).1.map (·, true)) := by
  have hd := dial_keeps (S := S) h noDelay a
  unfold dialWatched
  split
  · rename_i he
    rw [he] at hd
    exact hd
  · rename_i s w' he
    rw [he] at hd
    split
    · rename_i code w'' hg
      have hr : start.Keeps (w'.call S (.register s socketToken .readWrite)).2 (some (s, false)) := hd.idle (by rw [hg]; rfl)
      rw [hg] at hr
      exact close_keeps hr
    · rename_i w'' hg
      have hr : start.Keeps (w'.call S (.register s socketToken .readWrite)).2 (some (s, true)) :=
        hd.call fun hc hx => hc.watches (.inl (by rw [hx, hg]))
      rw [hg] at hr
      exact hr

end World

end IrcLink
