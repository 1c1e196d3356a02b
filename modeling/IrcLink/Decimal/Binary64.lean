import IrcLink.Decimal.Digits

/-!
Binary floating point of 64 bits, as exact numbers: a decimal is read as the nearest value, and a value is written
with the fewest digits that read back as it.
-/

namespace IrcLink

inductive Binary64 where
  /-- The value `significand * 2 ^ exponent`, with the sign told apart for zero. -/
  | finite (negative : Bool) (significand : Nat) (exponent : Int)
  | infinite (negative : Bool)
  | nan
  deriving Repr, DecidableEq

namespace Binary64

/-- The fraction `n * b ^ e / d`, as a numerator and a denominator. -/
def scale (b n d : Nat) (e : Int) : Nat × Nat :=
  if 0 ≤ e then (n * Nat.pow b e.toNat, d) else (n, d * Nat.pow b (-e).toNat)

def roundEven (n d : Nat) : Nat :=
  let q := n / d
  let r := n % d
  if 2 * r < d then q
  else if d < 2 * r then q + 1
  else if q % 2 = 0 then q else q + 1

/-- The exponent of the unit in the last place of `n / d`: 53 bits, and nothing below `2 ^ -1074`. -/
def unitExponent (n d : Nat) : Int :=
  let guess : Int := n.log2 - d.log2 - 53
  let (num, den) := scale 2 n d (-guess)
  max (if num < Nat.pow 2 53 * den then guess else guess + 1) (-1074)

def ofFraction (negative : Bool) (n d : Nat) : Binary64 :=
  let q := unitExponent n d
  let (num, den) := scale 2 n d (-q)
  let m := roundEven num den
  let (m, q) := if m = Nat.pow 2 53 then (Nat.pow 2 52, q + 1) else (m, q)
  if 971 < q then .infinite negative else .finite negative m q

/-- The value nearest to a row of digits, times `10 ^ e`. Far outside the range of exponents the answer is known
without computing the power. -/
def ofDecimal (negative : Bool) (digits : List Nat) (e : Int) : Binary64 :=
  match digits.dropWhile (· = 0) with
  | [] => .finite negative 0 0
  | d :: rest =>
    let places := e + (rest.length + 1)
    if 400 < places then .infinite negative
    else if places < -400 then .finite negative 0 0
    else
      let (num, den) := scale 10 (Digits.toNat 10 (d :: rest)) 1 e
      ofFraction negative num den

def digitCount (n : Nat) : Nat := (Nat.toDigits 10 n).length

/-- The number of places before the point: `10 ^ (k - 1) ≤ n / d < 10 ^ k`. -/
def magnitude (n d : Nat) : Int :=
  if d ≤ n then digitCount (n / d)
  else
    let k := digitCount (d / n) - 1
    if n * Nat.pow 10 k = d then 1 - (k : Int) else -(k : Int)

/-- Looks on the grids of `k`, `k + 1`, … digits for the point nearest to `n / d` among those strictly between the
bounds, or on them if `closed`; of two at the same distance the larger one. All three fractions share `d`. -/
def shortestFrom (lo n hi d : Nat) (closed : Bool) (top : Int) : Nat → Nat → Nat × Int
  | 0, _ => (0, 0)
  | fuel + 1, k =>
    let p := top - k
    let (num, den) := scale 10 n d (-p)
    let c := num / den
    let within (c : Nat) : Bool :=
      let (lo, den) := scale 10 lo d (-p)
      let (hi, _) := scale 10 hi d (-p)
      if closed then lo ≤ c * den && c * den ≤ hi else lo < c * den && c * den < hi
    if within c && (!within (c + 1) || 2 * (num % den) < den) then (c, p)
    else if within (c + 1) then (c + 1, p)
    else shortestFrom lo n hi d closed top fuel (k + 1)

/-- The fewest decimal digits that read back as `m * 2 ^ q`, and the power of ten they stand for. Seventeen always
do. -/
def shortest (m : Nat) (q : Int) : Nat × Int :=
  let (one, d) := scale 2 1 1 (q - 2)
  let below := if m = Nat.pow 2 52 ∧ -1074 < q then 1 else 2
  let n := 4 * m * one
  shortestFrom ((4 * m - below) * one) n ((4 * m + 2) * one) d (m % 2 = 0) (magnitude n d) 17 1

def positional (digits : String) (e : Int) : String :=
  if 0 ≤ e then digits ++ "".pushn '0' e.toNat ++ ".0"
  else
    let places := (-e).toNat
    let digits := "".pushn '0' (places + 1 - digits.length) ++ digits
    String.ofList (digits.toList.take (digits.length - places)) ++ "." ++
      String.ofList (digits.toList.drop (digits.length - places))

def trimZeros : Nat → Nat × Int → Nat × Int
  | 0, x => x
  | fuel + 1, (n, e) => if n % 10 = 0 ∧ n ≠ 0 then trimZeros fuel (n / 10, e + 1) else (n, e)

def toText : Binary64 → String
  | nan => "NaN"
  | infinite negative => if negative then "-inf" else "inf"
  | finite negative m q =>
    let unsigned :=
      if m = 0 then "0.0"
      else
        let (n, e) := trimZeros 17 (shortest m q)
        positional (toString n) e
    if negative then "-" ++ unsigned else unsigned

end Binary64

end IrcLink
