import Blockwork.Decimal.Binary64

/-!
# The number nearest to a decimal

`nearestPlace` is the place of the double-precision value nearest to a fraction, a tie going
to the even significand; values beyond the finite range land on infinity. `ofDecimal` applies
it to a decimal, whose exponent may be of any size.
-/

namespace Blockwork

/-- The integer nearest to a fraction; a half goes to the even neighbour. -/
def roundHalfEven (num den : Nat) : Nat :=
  let below := num / den
  let rest := num % den
  if 2 * rest < den then below
  else if den < 2 * rest then below + 1
  else below + below % 2

/-- The largest `k` with `2 ^ k ≤ num / den`, for a positive fraction. -/
def floorLog2 (num den : Nat) : Int :=
  let guess : Int := (num.log2 : Int) - (den.log2 : Int)
  let fits : Bool :=
    if 0 ≤ guess then den * 2 ^ guess.toNat ≤ num else den ≤ num * 2 ^ (-guess).toNat
  if fits then guess else guess - 1

namespace Binary64

/-- The place of the value nearest to a fraction. The grid of the values around the fraction
has the step `2 ^ q`; counted in steps, places and significands differ by a constant. -/
def nearestPlace (num den : Nat) : Nat :=
  if num = 0 then 0
  else
    -- Normal significands have 53 bits; below the normal range the step stays the same.
    let q : Int := max (-1074) (floorLog2 num den - 52)
    let steps :=
      if 0 ≤ q then roundHalfEven num (den * 2 ^ q.toNat)
      else roundHalfEven (num * 2 ^ (-q).toNat) den
    (q + 1074).toNat * 2 ^ 52 + steps

/-- The number nearest to `digits * 10 ^ exponent`. Exponents that decide the answer alone are
settled first, so that no power of ten is larger than needed. -/
def ofDecimal (negative : Bool) (digits : Nat) (exponent : Int) : Binary64 :=
  if digits = 0 then signedZero negative
  -- The finite range lies between 10 ^ -324 and 10 ^ 309.
  else if 400 < exponent then infinity negative
  else if exponent + digits.log2 < -401 then signedZero negative
  else if 0 ≤ exponent then
    atPlace negative (nearestPlace (digits * 10 ^ exponent.toNat) 1)
  else
    atPlace negative (nearestPlace digits (10 ^ (-exponent).toNat))

end Binary64

end Blockwork
