/-!
Broken promises. An operation that moves bytes checks what its caller claims before it changes anything; a
claim that does not hold is a `Fault`, and nothing is changed.
-/

namespace IrcLink

inductive Fault where
  | zeroCapacity
  | consumeBeyond (asked available : Nat)
  | reserveBeyond (asked available : Nat)
  /-- More of the received text was dropped than there is. -/
  | skipBeyond (asked available : Nat)
  deriving Repr, DecidableEq

def Fault.message : Fault → String
  | zeroCapacity => "ring buffer capacity must be non-zero"
  | consumeBeyond n m => s!"consume({n}) exceeds contiguous readable bytes ({m})"
  | reserveBeyond n m => s!"reserve({n}) exceeds contiguous free bytes ({m})"
  | skipBeyond n m => s!"skip({n}) exceeds received bytes ({m})"

namespace Fault

variable {α β : Type} {x : Except Fault α} {a : α} {b : β}

theorem bind_eq_ok {f : α → Except Fault β} : x >>= f = .ok b ↔ ∃ a, x = .ok a ∧ f a = .ok b := by
  cases x <;> simp [bind, Except.bind]

theorem map_eq_ok {f : α → β} : x.map f = .ok b ↔ ∃ a, x = .ok a ∧ f a = b := by
  cases x <;> simp [Except.map]

theorem toOption_eq_some : x.toOption = some a ↔ x = .ok a := by
  cases x <;> simp [Except.toOption]

theorem foldlM_ok {R : β → β → Prop} {f : β → α → Except Fault β} (hnil : ∀ b, R b b)
    (hcons : ∀ {a b b' b''}, f b a = .ok b' → R b' b'' → R b b'') {l : List α} {b b' : β} (h : l.foldlM f b = .ok b') :
    R b b' := by
  induction l generalizing b with
  | nil =>
    obtain rfl := Except.ok.inj h
    exact hnil b
  | cons a l ih =>
    rw [List.foldlM_cons] at h
    obtain ⟨b₁, h₁, h⟩ := bind_eq_ok.mp h
    exact hcons h₁ (ih h)

instance [DecidableEq α] (x : Except Fault α) (a : α) : Decidable (x = .ok a) :=
  decidable_of_iff (x.toOption = some a) toOption_eq_some

end Fault

end IrcLink
