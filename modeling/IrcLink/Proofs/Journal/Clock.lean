import IrcLink.Proofs.Journal.Errands

/-!
How the clock runs along the ways of the engine, if only waits take time. Every entry of a journal is stamped with a time
between the start and the end of the way that left it.
-/

namespace IrcLink

/-- The clock never goes back. It stands still except during a wait, and a wait takes no longer than it was given. -/
structure System.Steady {ω : Type} (S : System ω) : Prop where
  answer : ∀ c os, S.time (S.answer c os).2 = S.time os
  meanwhile : ∀ next os, (∀ capacity timeout, next ≠ some (.wait capacity timeout)) →
    S.time (S.meanwhile next os).2 = S.time os
  onward : ∀ capacity timeout os, S.time os ≤ S.time (S.meanwhile (some (.wait capacity timeout)) os).2
  within : ∀ capacity limit os,
    S.time (S.meanwhile (some (.wait capacity (some limit))) os).2 ≤ S.time os + limit

namespace Journal

def lastDial? (j : Journal) : Option (Nat × SocketAddress) :=
  (j.filterMap fun x => x.event.dialled?.map (x.time, ·)).getLast?

theorem lastDial_append {j seg : Journal} (h : ∀ x ∈ seg, x.event.dialled? = none) :
    lastDial? (j ++ seg) = lastDial? j := by
  have hnil : seg.filterMap (fun x => x.event.dialled?.map (x.time, ·)) = [] := by
    rw [List.filterMap_eq_nil_iff]
    intro x hx
    rw [h x hx]
    rfl
  rw [lastDial?, List.filterMap_append, hnil, List.append_nil, lastDial?]

end Journal

namespace World

variable {ω : Type} {S : System ω} {P : Event → Prop} {w w' w'' : World ω} {m n : Nat}

theorem Only.lastDial_eq (h : Only (·.dialled? = none) w w') : w'.journal.lastDial? = w.journal.lastDial? := by
  obtain ⟨seg, hj, hn⟩ := h.entries fun _ => Event.dialled_of_foreign
  rw [hj, Journal.lastDial_append hn]

theorem lastDial_record (w : World ω) (a : SocketAddress) :
    (w.record S (.dialled a)).journal.lastDial? = some (S.time w.os, a) := by
  simp [record, Journal.lastDial?, Event.dialled?]

/-- From the one world to the other no more than this time passes, and what is new in the journal was left in it. -/
structure Lasts (S : System ω) (limit : Nat) (w w' : World ω) : Prop where
  onward : S.time w.os ≤ S.time w'.os
  within : S.time w'.os ≤ S.time w.os + limit
  stamped : ∃ seg : Journal, w'.journal = w.journal ++ seg ∧ ∀ x ∈ seg, S.time w.os ≤ x.time ∧ x.time ≤ S.time w'.os

namespace Lasts

theorem of_eq (ht : S.time w'.os = S.time w.os) (hj : w'.journal = w.journal) : w.Lasts S 0 w' := by
  refine ⟨by omega, by omega, [], ?_, nofun⟩
  rw [hj, List.append_nil]

theorem refl (w : World ω) : w.Lasts S 0 w := of_eq rfl rfl

theorem trans (h : w.Lasts S m w') (h' : w'.Lasts S n w'') : w.Lasts S (m + n) w'' := by
  obtain ⟨ho, hi, seg, hj, hs⟩ := h
  obtain ⟨ho', hi', seg', hj', hs'⟩ := h'
  refine ⟨by omega, by omega, seg ++ seg', by rw [hj', hj, List.append_assoc], ?_⟩
  intro x hx
  obtain hx | hx := List.mem_append.mp hx
  · obtain ⟨hle, hge⟩ := hs x hx
    exact ⟨hle, by omega⟩
  · obtain ⟨hle, hge⟩ := hs' x hx
    exact ⟨by omega, hge⟩

theorem keep (h : w.Lasts S m w') (hos : w''.os = w'.os) (hj : w''.journal = w'.journal) : w.Lasts S m w'' :=
  h.trans (.of_eq (by rw [hos]) hj)

theorem mono (h : w.Lasts S m w') (hmn : m ≤ n) : w.Lasts S n w' := by
  obtain ⟨ho, hi, hs⟩ := h
  exact ⟨ho, by omega, hs⟩

theorem time_eq (h : w.Lasts S 0 w') : S.time w'.os = S.time w.os := by
  obtain ⟨ho, hi, -⟩ := h
  omega

theorem entry (h : w.Lasts S m w') {seg : Journal} (hj : w'.journal = w.journal ++ seg) :
    ∀ x ∈ seg, S.time w.os ≤ x.time ∧ x.time ≤ S.time w'.os := by
  obtain ⟨-, -, seg', hj', hs⟩ := h
  rw [hj] at hj'
  rwa [List.append_cancel_left hj']

end Lasts

theorem record_lasts (w : World ω) (e : Event) : w.Lasts S 0 (w.record S e) :=
  ⟨Nat.le_refl _, Nat.le_refl _, [⟨S.time w.os, e⟩], rfl, by simp [record]⟩

theorem ask_lasts (hS : S.Steady) (w : World ω) (c : Call) : w.Lasts S 0 (w.ask S c).2 := by
  have ha : w.Lasts S 0 { w with os := (S.answer c w.os).2 } := .of_eq (hS.answer c w.os) rfl
  exact ha.trans (record_lasts _ _)

theorem act_lasts (hS : S.Steady) (w : World ω) (d : Deed) : w.Lasts S 0 (w.act S d) := by
  have hr : w.Lasts S 0 (w.record S (.deed d)) := record_lasts w _
  cases d with
  | requestStop => exact hr.keep rfl rfl
  | finishLookup found =>
    simp only [act]
    split
    · exact hr.keep rfl rfl
    · exact hr
  | wake =>
    simp only [act]
    split
    · exact hr
    · refine (hr.keep ?_ ?_).trans (ask_lasts hS _ .wake)
      · rfl
      · rfl

theorem deeds_last (hS : S.Steady) (ds : List Deed) (w : World ω) : w.Lasts S 0 (ds.foldl (act S) w) := by
  induction ds generalizing w with
  | nil => exact .refl w
  | cons d ds ih => exact (act_lasts hS w d).trans (ih _)

theorem letOthersAct_lasts (hS : S.Steady) (w : World ω) {next : Option Call}
    (hnext : ∀ capacity timeout, next ≠ some (.wait capacity timeout)) : w.Lasts S 0 (w.letOthersAct S next) := by
  have hm : w.Lasts S 0 { w with os := (S.meanwhile next w.os).2 } := .of_eq (hS.meanwhile next w.os hnext) rfl
  exact hm.trans (deeds_last hS _ _)

theorem now_lasts (hS : S.Steady) (w : World ω) : w.Lasts S 0 (w.now S).2 := letOthersAct_lasts hS w nofun

theorem Via.lasts (hS : S.Steady) (h : w.Via S P w') (hP : ∀ e, P e → e.waitTimeout? = none) : w.Lasts S 0 w' := by
  induction h with
  | refl => exact .refl w
  | @call w' _ c _ hc ih =>
    refine (ih.trans (letOthersAct_lasts hS w' ?_)).trans (ask_lasts hS _ c)
    -- the entry of a wait has a timeout, so this call is none and the others take no time before it
    intro capacity timeout hwait
    obtain rfl := Option.some.inj hwait
    exact absurd (hP _ hc) nofun
  | record _ _ _ ih => exact ih.trans (record_lasts _ _)
  | @look w' _ ih => exact ih.trans (now_lasts hS w')
  | keep _ hos hj ih => exact ih.keep hos hj

theorem wait_lasts (hS : S.Steady) (w : World ω) (capacity limit : Nat) :
    w.Lasts S limit (w.wait S capacity (some limit)).2 := by
  let next : Call := .wait capacity (some (min Call.longestWait limit))
  have hon : S.time w.os ≤ S.time (S.meanwhile (some next) w.os).2 := hS.onward _ _ _
  have hin : S.time (S.meanwhile (some next) w.os).2 ≤ S.time w.os + min Call.longestWait limit := hS.within _ _ _
  have hos : w.Lasts S limit { w with os := (S.meanwhile (some next) w.os).2 } := by
    refine ⟨hon, ?_, [], (List.append_nil _).symm, nofun⟩
    change S.time (S.meanwhile (some next) w.os).2 ≤ _
    omega
  exact (hos.trans (deeds_last hS _ _)).trans (ask_lasts hS _ next)

end World

end IrcLink
