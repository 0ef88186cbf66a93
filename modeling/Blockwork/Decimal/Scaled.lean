import Blockwork.Decimal.Nearest

/-!
# Numbers read by scaling

`scaled?` is a quick way to read the decimal `digits * 10 ^ exponent`: the digits become a
number, and that is multiplied or divided by the number nearest to a power of ten. Each step
rounds to nearest, so with many digits or a large exponent the outcome can miss the number
nearest to the decimal, which is `ofDecimal`, by a little.
-/

namespace Blockwork.Binary64

/-- The number nearest to the product of two finite numbers. -/
def mul (x y : Binary64) : Binary64 :=
  let (a, b) := x.fraction
  let (c, d) := y.fraction
  atPlace (x.negative != y.negative) (nearestPlace (a * c) (b * d))

/-- The number nearest to the quotient of two finite numbers, the second of them not zero. -/
def div (x y : Binary64) : Binary64 :=
  let (a, b) := x.fraction
  let (c, d) := y.fraction
  atPlace (x.negative != y.negative) (nearestPlace (a * d) (b * c))

/-- The highest exponent of a power of ten within the finite range. -/
def maxPower : Nat := 308

/-- The number nearest to a power of ten within the finite range. -/
def powerOfTen (power : Nat) : Binary64 :=
  ofDecimal false 1 power

/-- A number of less than 65 bits divided by a power of ten, in two steps where the power is
beyond the finite range. Two steps by the highest power leave nothing of such a number. -/
def scaledDown (x : Binary64) (power : Nat) : Binary64 :=
  if power ≤ maxPower then x.div (powerOfTen power)
  else if power ≤ 2 * maxPower then
    (x.div (powerOfTen maxPower)).div (powerOfTen (power - maxPower))
  else signedZero x.negative

/-- A number multiplied by a power of ten, unless the product is beyond the finite range. -/
def scaledUp? (x : Binary64) (power : Nat) : Option Binary64 :=
  if x.isZero then some x
  else if power ≤ maxPower then (some (x.mul (powerOfTen power))).filter isFinite
  else none

/-- Reads `digits * 10 ^ exponent` by scaling, for digits of less than 65 bits. -/
def scaled? (negative : Bool) (digits : Nat) (exponent : Int) : Option Binary64 :=
  let x := ofDecimal negative digits 0
  if 0 ≤ exponent then x.scaledUp? exponent.toNat
  else some (x.scaledDown (-exponent).toNat)

end Blockwork.Binary64
