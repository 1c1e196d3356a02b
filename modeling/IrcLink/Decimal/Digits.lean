/-!
Rows of digits of a base, first digit first, and the numbers they stand for.
-/

namespace IrcLink.Digits

def value (base : Nat) (ds : List Nat) : Nat := ds.foldl (fun n d => base * n + d) 0

def byHalves (base : Nat) : Nat → List Nat → Nat
  | 0, ds => value base ds
  | n + 1, ds =>
    let high := ds.take (ds.length / 2)
    let low := ds.drop (ds.length / 2)
    byHalves base n high * Nat.pow base low.length + byHalves base n low

/-- The value of a row of any length; a long one takes few steps with large numbers by halves. -/
def toNat (base : Nat) (ds : List Nat) : Nat := byHalves base ds.length.log2 ds

end IrcLink.Digits
