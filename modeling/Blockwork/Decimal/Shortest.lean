import Blockwork.Decimal.Binary64

/-!
# The fewest digits that read back

`shortest` gives the decimal with the fewest digits among those whose nearest double-precision
value is the given one, and of these the decimal nearest to it. The decimals in question are
the ones in the *rounding interval*, whose ends are the midpoints to the two neighbours; the
ends belong to it when the significand is even, because ties go there. A grid of decimals with
a fixed last place has a point in the interval if and only if one of the two points next to
the value lies in it, so it is enough to try these two on ever finer grids.
-/

namespace Blockwork

/-- Which of two equally near decimals is taken. -/
inductive Tie where
  | upward
  | toEven
deriving DecidableEq, Repr

/-- A decimal `digits * 10 ^ exponent`. -/
structure Decimal where
  digits : Nat
  exponent : Int
deriving DecidableEq, Repr

/-- Without zeros at the end of its digits; `fuel` bounds how many are dropped. -/
def Decimal.stripZeros : Nat → Decimal → Decimal
  | 0, d => d
  | fuel + 1, d =>
    if d.digits ≠ 0 ∧ d.digits % 10 = 0 then
      stripZeros fuel ⟨d.digits / 10, d.exponent + 1⟩
    else d

/-- The largest `k` with `10 ^ k ≤ num / den`, for a positive fraction. -/
def floorLog10 (num den : Nat) : Int :=
  let guess : Int := ((Nat.toDigits 10 num).length : Int) - ((Nat.toDigits 10 den).length : Int)
  let fits : Bool :=
    if 0 ≤ guess then den * 10 ^ guess.toNat ≤ num else den ≤ num * 10 ^ (-guess).toNat
  if fits then guess else guess - 1

namespace Binary64

/-- The rounding interval of a positive finite value: its ends and the value between them as
multiples of `1 / unit`. -/
structure RoundingInterval where
  low : Nat
  value : Nat
  high : Nat
  unit : Nat
  closed : Bool

/-- The rounding interval of a value. The lower neighbour of a power of two is only half as
far away as the upper one. -/
def roundingInterval (x : Binary64) : RoundingInterval :=
  let m := x.significand
  let down := if m = 2 ^ 52 ∧ 2 ^ 53 ≤ x.magnitude then 1 else 2
  let e := x.exponent - 2
  let scale := if 0 ≤ e then 2 ^ e.toNat else 1
  { low := (4 * m - down) * scale
    value := 4 * m * scale
    high := (4 * m + 2) * scale
    unit := if 0 ≤ e then 1 else 2 ^ (-e).toNat
    closed := m % 2 = 0 }

/-- The interval measured in steps of `10 ^ place`: a decimal `a * 10 ^ place` is then compared
as `a * unit`. -/
def RoundingInterval.onGrid (r : RoundingInterval) (place : Int) : RoundingInterval :=
  let up := if 0 ≤ place then 1 else 10 ^ (-place).toNat
  let down := if 0 ≤ place then 10 ^ place.toNat else 1
  { low := r.low * up, value := r.value * up, high := r.high * up, unit := r.unit * down,
    closed := r.closed }

/-- Whether the multiple `a` of the unit lies in the interval. -/
def RoundingInterval.holds (r : RoundingInterval) (a : Nat) : Bool :=
  if r.closed then r.low ≤ a * r.unit && a * r.unit ≤ r.high
  else r.low < a * r.unit && a * r.unit < r.high

/-- The multiple of the unit that lies in the interval nearest to the value, if one does. -/
def RoundingInterval.pick? (r : RoundingInterval) (tie : Tie) : Option Nat :=
  let below := r.value / r.unit
  let rest := r.value % r.unit
  match r.holds below, r.holds (below + 1) with
  | true, true =>
    if 2 * rest < r.unit then some below
    else if r.unit < 2 * rest then some (below + 1)
    else
      match tie with
      | .upward => some (below + 1)
      | .toEven => some (below + below % 2)
  | true, false => some below
  | false, true => some (below + 1)
  | false, false => none

/-- All digits of a finite absolute value. -/
def exactDecimal (x : Binary64) : Decimal :=
  if 0 ≤ x.exponent then ⟨x.significand * 2 ^ x.exponent.toNat, 0⟩
  else ⟨x.significand * 5 ^ (-x.exponent).toNat, x.exponent⟩

/-- The shortest decimal that reads back as a finite absolute value. Seventeen digits are
always enough; if they were not, all digits would be given. -/
def shortest (tie : Tie) (x : Binary64) : Decimal :=
  if x.magnitude = 0 then ⟨0, 0⟩
  else
    let r := x.roundingInterval
    let leading := floorLog10 r.value r.unit
    -- The first grid has the place of the leading digit, each further one a place more.
    let found := (List.range 17).findSome? fun (n : Nat) =>
      ((r.onGrid (leading - n)).pick? tie).map fun digits =>
        (⟨digits, leading - n⟩ : Decimal)
    (found.getD x.exactDecimal).stripZeros 18

end Binary64

end Blockwork
