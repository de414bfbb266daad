/-!
# Double precision

The integers of double precision have at most 53 significant bits and are below `2 ^ 1024`. This module rounds
natural numbers to that precision (`Double.round`), which decides whether a decimal numeral is too large. A
numeral that is read digit by digit is rounded more than once (`Double.exceeds`), so the exact bound stands
beside it (`Double.isFinite`).
-/

namespace TrafficMeter.Double

/-- The number of significant bits of a number in double precision. -/
def precision : Nat := 53

/-- What is rounded to `2 ^ 1024` or beyond is too large. -/
def limit : Nat := Nat.pow 2 1024

/-- The number of at most `precision` significant bits that is nearest to `n`. Of two that are equally near it is
the one with an even last bit. -/
def round (n : Nat) : Nat :=
  let unit := Nat.pow 2 (n.log2 + 1 - precision)
  let quotient := n / unit
  let remainder := n % unit
  if unit < 2 * remainder ∨ 2 * remainder = unit ∧ quotient % 2 = 1 then (quotient + 1) * unit
  else quotient * unit

/-- The product of `a` and `b`, with both of them and the product rounded. -/
def product (a b : Nat) : Nat :=
  round (round a * round b)

/-- The greatest exponent of a power of ten below `limit`. -/
def maxPower : Nat := 308

/-- `significand * 10 ^ power` is too large, as it is computed in double precision. A negative power never makes
it so for the numbers of one word. -/
def exceeds (significand : Nat) (power : Int) : Bool :=
  if significand = 0 ∨ power < 0 then false
  else maxPower < power || limit ≤ product significand (Nat.pow 10 power.toNat)

/-- Numbers from `2 ^ 1024 - 2 ^ 970` on are nearer to `limit` than to any number of double precision below it,
or as near. -/
def bound : Nat := Nat.pow 2 1024 - Nat.pow 2 970

/-- `significand * 10 ^ power` is below `bound`. The number of digits decides this unless it is the same as that
of `bound`. -/
def isFinite (significand : Nat) (power : Int) : Bool :=
  let length := (Nat.toDigits 10 significand).length + power
  if significand = 0 ∨ length ≤ maxPower then true
  else if maxPower + 1 < length then false
  else significand * Nat.pow 10 power.toNat < bound * Nat.pow 10 (-power).toNat

end TrafficMeter.Double
