/-!
# Double-precision numbers

The numbers `m · 2^q` that a 64-bit floating-point format holds, reached from a decimal by rounding
to the nearest and written with the fewest digits that lead back.  All arithmetic is on naturals and
exact.
-/

namespace AlgebraicData.Decimal

/-- A magnitude `mantissa · 2^exponent` with at most 53 bits. -/
structure Binary64 where
  mantissa : Nat
  exponent : Int
deriving DecidableEq, Repr

/-! ## From a decimal -/

/-- The quotient rounded to the nearest natural, a half to the even one. -/
def roundQuotient (num den : Nat) : Nat :=
  let q := num / den
  let r := num % den
  if 2 * r < den || (2 * r == den && q % 2 == 0) then q else q + 1

/-- `n · base^e` as numerator and denominator. -/
def scaled (n base : Nat) (e : Int) : Nat × Nat :=
  if 0 ≤ e then (n * Nat.pow base e.toNat, 1) else (n, Nat.pow base (-e).toNat)

/-- The greatest `l` with `2^l ≤ num / den`. -/
def floorLog2 (num den : Nat) : Int :=
  let guess : Int := (num.log2 : Int) - (den.log2 : Int)
  let (power, one) := scaled 1 2 guess
  if num * one < den * power then guess - 1 else guess

/-- The number of decimal digits. -/
def digitCount (n : Nat) : Nat :=
  (Nat.toDigits 10 n).length

/-- The magnitude nearest to `n · 10^e`, unless it is beyond the greatest.  Scales far outside the
format's range are settled before any power is computed. -/
def nearest? (n : Nat) (e : Int) : Option Binary64 :=
  let scale : Int := digitCount n + e
  if n = 0 || scale < -330 then some ⟨0, -1074⟩
  else if scale > 310 then none
  else
    let (num, den) := scaled n 10 e
    let q := max (floorLog2 num den - 52) (-1074)
    let (power, one) := scaled 1 2 q
    let m := roundQuotient (num * one) (den * power)
    let (m, q) := if m = Nat.pow 2 53 then (Nat.pow 2 52, q + 1) else (m, q)
    if q > 971 then none else some ⟨m, q⟩

/-! ## To a decimal -/

/-- Move the trailing zeros of `n · 10^e` into the exponent. -/
def stripZeros (n : Nat) (e : Int) : Nat × Int :=
  if h : n ≠ 0 ∧ n % 10 = 0 then stripZeros (n / 10) (e + 1) else (n, e)
termination_by n

/-- The neighbour of `x` among the multiples of `10^e` that leads back to `x`, the nearer one if
both do and the greater one in a tie. -/
def neighbour? (x : Binary64) (e : Int) : Option (Nat × Int) :=
  let (num, one) := scaled x.mantissa 2 x.exponent
  let (power, ten) := scaled 1 10 e
  let (num, den) := (num * ten, one * power)
  let below := num / den
  let isBelow := nearest? below e == some x
  let isAbove := nearest? (below + 1) e == some x
  if isBelow && (!isAbove || 2 * (num % den) < den) then some (below, e)
  else if isAbove then some (below + 1, e)
  else none

/-- The place of the first digit: `x < 10^k`, and not by much. -/
def decimalScale (x : Binary64) : Int :=
  let (num, den) := scaled x.mantissa 2 x.exponent
  if den ≤ num then digitCount (num / den) else 1 - (digitCount (den / num) : Int)

/-- The decimal `n · 10^e` with the fewest digits that leads back to `x`.  Seventeen digits always
do; the last resort is the exact value. -/
def shortest (x : Binary64) : Nat × Int :=
  if x.mantissa = 0 then (0, 0)
  else
    let k := decimalScale x
    match (List.range 17).findSome? fun (i : Nat) => neighbour? x (k - (i + 1)) with
    | some (n, e) => stripZeros n e
    | none =>
      if 0 ≤ x.exponent then (x.mantissa * Nat.pow 2 x.exponent.toNat, 0)
      else stripZeros (x.mantissa * Nat.pow 5 (-x.exponent).toNat) x.exponent

/-- `n · 10^e` without an exponent, with a digit at least on both sides of the point. -/
def positional (n : Nat) (e : Int) : String :=
  let digits := Nat.toDigits 10 n
  if 0 ≤ e then String.ofList (digits ++ List.replicate e.toNat '0' ++ ['.', '0'])
  else
    let places := (-e).toNat
    let padded := List.replicate (places + 1 - digits.length) '0' ++ digits
    let (whole, fraction) := padded.splitAt (padded.length - places)
    String.ofList (whole ++ '.' :: fraction)

end AlgebraicData.Decimal
