import IrcLink.Fault

/-!
Operations that stop the program when they are asked for what there is not: a number less than zero, places outside a
string, the remainder of a division by zero. The program is gone through once more in these terms in the modules of this
directory, and comes to the same results; so it never asks for any of that.
-/

namespace IrcLink

/-- Why a program stops that does what it must not. -/
inductive Panic where
  | broken (f : Fault)
  | below (n m : Nat)
  | outside (start stop length : Nat)
  | noElement (i length : Nat)
  /-- A copy to a place of another length. -/
  | uneven (n m : Nat)
  | byZero
  | unreachable
  /-- A pass of a loop has brought it no nearer to its end. -/
  | endless
  deriving Repr, DecidableEq

namespace Checked

variable {α β : Type}

def lift (x : Except Fault α) : Except Panic α := x.mapError .broken

theorem lift_ok (a : α) : lift (.ok a) = .ok a := rfl

theorem bind_lift {x : Except Fault α} {f : α → Except Fault β} {y : Except Panic α} {g : α → Except Panic β}
    (hy : y = lift x) (h : ∀ a, x = .ok a → g a = lift (f a)) : y >>= g = lift (x >>= f) := by
  subst hy
  cases x with
  | error e => rfl
  | ok a => exact h a rfl

theorem map_lift {x : Except Fault α} {y : Except Panic α} (hy : y = lift x) (f : α → β) :
    (do return f (← y)) = lift (x.map f) := by
  subst hy
  cases x <;> rfl

theorem lift_of_ok {x : Except Fault α} {y : Except Panic α} {a : α} (hy : y = lift x) (h : x = .ok a) : y = .ok a := by
  rw [hy, h, lift_ok]

def sub (n m : Nat) : Except Panic Nat := if m ≤ n then .ok (n - m) else .error (.below n m)

def quotient (n m : Nat) : Except Panic Nat := if m = 0 then .error .byZero else .ok (n / m)

def remainder (n m : Nat) : Except Panic Nat := if m = 0 then .error .byZero else .ok (n % m)

theorem sub_eq_ok {n m : Nat} (h : m ≤ n) : sub n m = .ok (n - m) := if_pos h

theorem quotient_eq_ok {n m : Nat} (h : m ≠ 0) : quotient n m = .ok (n / m) := if_neg h

theorem remainder_eq_ok {n m : Nat} (h : m ≠ 0) : remainder n m = .ok (n % m) := if_neg h

def element (s : List α) (i : Nat) : Except Panic α :=
  match s[i]? with
  | some a => .ok a
  | none => .error (.noElement i s.length)

def slice (s : List α) (start stop : Nat) : Except Panic (List α) :=
  if start ≤ stop ∧ stop ≤ s.length then .ok ((s.drop start).take (stop - start))
  else .error (.outside start stop s.length)

def even (n m : Nat) : Except Panic Unit := if n = m then .ok () else .error (.uneven n m)

theorem element_eq_ok {s : List α} {i : Nat} (h : i < s.length) : element s i = .ok s[i] := by
  rw [element, List.getElem?_eq_getElem h]

theorem slice_eq_ok {s : List α} {start stop : Nat} (h : start ≤ stop) (hs : stop ≤ s.length) :
    slice s start stop = .ok ((s.drop start).take (stop - start)) := if_pos ⟨h, hs⟩

theorem slice_front {s : List α} {stop : Nat} (h : stop ≤ s.length) : slice s 0 stop = .ok (s.take stop) :=
  slice_eq_ok (Nat.zero_le _) h

theorem slice_rest {s : List α} {start : Nat} (h : start ≤ s.length) : slice s start s.length = .ok (s.drop start) := by
  rw [slice_eq_ok h (Nat.le_refl _), List.take_of_length_le (Nat.le_of_eq List.length_drop)]

theorem even_eq_ok {n m : Nat} (h : n = m) : even n m = .ok () := if_pos h

end Checked

end IrcLink
