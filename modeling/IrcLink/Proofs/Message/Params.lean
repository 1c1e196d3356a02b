import IrcLink.Proofs.Session.Lines

/-!
Parameters as a server reads them. A space ends a parameter, and more spaces are skipped; one that starts with a colon
takes the rest of the line, without the colon. So a word can be sent as a parameter of its own unless it starts with a
colon, and any text can be the last parameter if a colon is put before it.
-/

namespace IrcLink

open Bytes

namespace Message

structure Params where
  middles : List Bytes
  trailing : Option Bytes
  deriving Repr, DecidableEq

namespace Params

def all (p : Params) : List Bytes := p.middles ++ p.trailing.toList

def push (w : Bytes) (p : Params) : Params := ⟨w :: p.middles, p.trailing⟩

def split : Bytes → Params
  | [] => ⟨[], none⟩
  | b :: rest =>
    if b = space then split rest
    else if b = colon then ⟨[], some rest⟩
    else match _h : splitAt? space (b :: rest) with
      | none => ⟨[b :: rest], none⟩
      | some (w, more) => (split more).push w
termination_by s => s.length
decreasing_by
  · exact Nat.lt_succ_self _
  · rw [(splitAt?_eq_some _h).1, List.length_append, List.length_cons]
    omega

/-- What can be sent as a parameter, wherever it stands. -/
structure Word (w : Bytes) : Prop where
  ne_nil : w ≠ []
  space_notMem : space ∉ w
  unmarked : w.head? ≠ some colon

theorem split_nil : split [] = ⟨[], none⟩ := by rw [split]

theorem split_colon (s : Bytes) : split (colon :: s) = ⟨[], some s⟩ := by rw [split, if_neg (by decide), if_pos rfl]

variable {w : Bytes}

theorem Word.exists_cons (h : Word w) : ∃ b rest, w = b :: rest ∧ b ≠ space ∧ b ≠ colon := by
  obtain ⟨b, rest, rfl⟩ := List.exists_cons_of_ne_nil h.ne_nil
  refine ⟨b, rest, rfl, ?_, ?_⟩
  · rintro rfl
    exact h.space_notMem List.mem_cons_self
  · rintro rfl
    exact h.unmarked rfl

theorem split_word (h : Word w) : split w = ⟨[w], none⟩ := by
  obtain ⟨b, rest, rfl, hspace, hcolon⟩ := h.exists_cons
  rw [split, if_neg hspace, if_neg hcolon, splitAt?_eq_none.mpr h.space_notMem]

theorem split_word_then (h : Word w) (rest : Bytes) : split (w ++ space :: rest) = (split rest).push w := by
  obtain ⟨b, more, rfl, hspace, hcolon⟩ := h.exists_cons
  have hs := splitAt?_of_notMem h.space_notMem rest
  rw [List.cons_append] at hs ⊢
  rw [split, if_neg hspace, if_neg hcolon, hs]

theorem split_marked (h : w.head? = some colon) (rest : Bytes) : split (w ++ rest) = ⟨[], some (w.tail ++ rest)⟩ := by
  obtain ⟨more, rfl⟩ := List.head?_eq_some_iff.mp h
  exact split_colon _

end Params

end Message

end IrcLink
