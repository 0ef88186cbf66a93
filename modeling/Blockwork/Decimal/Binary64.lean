/-!
# Double-precision numbers

A `Binary64` is a sign and a *magnitude*: the place of its absolute value in the list of all
nonnegative double-precision values, which starts 0, the smallest positive number, the next
one, and so on to infinity; places behind infinity stand for values that are not numbers. The
finite value at a place is `significand * 2 ^ exponent`. All questions about a number are
answered by exact integer arithmetic on these two.
-/

namespace Blockwork

/-- Powers of natural numbers are the core library's, whatever other libraries know of them. -/
@[default_instance high]
instance (priority := high) natPower : Pow Nat Nat := instPowNat

/-- A double-precision number: its sign and the place of its absolute value. -/
structure Binary64 where
  negative : Bool
  magnitude : Nat
  magnitude_lt : magnitude < 2 ^ 63
deriving DecidableEq

namespace Binary64

/-- The place of infinity among the magnitudes. -/
def infinityPlace : Nat := 2047 * 2 ^ 52

/-- The place of the value that stands for "not a number". -/
def nanPlace : Nat := infinityPlace + 2 ^ 51

/-- Positive zero. -/
def zero : Binary64 := ⟨false, 0, by decide⟩

/-- Zero with this sign. -/
def signedZero (negative : Bool) : Binary64 := ⟨negative, 0, by decide⟩

/-- Infinity with this sign. -/
def infinity (negative : Bool) : Binary64 := ⟨negative, infinityPlace, by decide⟩

/-- The value that is not a number, with this sign. -/
def nan (negative : Bool) : Binary64 := ⟨negative, nanPlace, by decide⟩

instance : Inhabited Binary64 := ⟨zero⟩

/-- The number with this sign at a place; places behind infinity become infinity. -/
def atPlace (negative : Bool) (place : Nat) : Binary64 :=
  if h : place < infinityPlace then
    ⟨negative, place, Nat.lt_trans h (by decide)⟩
  else infinity negative

/-- Neither infinite nor "not a number". -/
def isFinite (x : Binary64) : Bool :=
  x.magnitude < infinityPlace

/-- The value is not a number. -/
def isNaN (x : Binary64) : Bool :=
  infinityPlace < x.magnitude

/-- Either zero. -/
def isZero (x : Binary64) : Bool :=
  x.magnitude == 0

/-- Below zero; neither zero is. -/
def isNegative (x : Binary64) : Bool :=
  x.negative && !x.isZero && !x.isNaN

/-- The integer factor of a finite absolute value. -/
def significand (x : Binary64) : Nat :=
  if x.magnitude < 2 ^ 52 then x.magnitude else 2 ^ 52 + x.magnitude % 2 ^ 52

/-- The power of two that goes with the significand of a finite value. -/
def exponent (x : Binary64) : Int :=
  if x.magnitude < 2 ^ 52 then -1074 else (x.magnitude / 2 ^ 52 : Nat) - 1075

/-- A finite absolute value as a fraction of natural numbers. -/
def fraction (x : Binary64) : Nat × Nat :=
  if 0 ≤ x.exponent then (x.significand * 2 ^ x.exponent.toNat, 1)
  else (x.significand, 2 ^ (-x.exponent).toNat)

/-- The value, when it is an integer. -/
def toInt? (x : Binary64) : Option Int :=
  let (num, den) := x.fraction
  if x.isFinite && num % den == 0 then
    some (if x.negative then -((num / den : Nat) : Int) else ((num / den : Nat) : Int))
  else none

/-- The key of the total order that ranks -NaN < -∞ < … < -0 < 0 < … < ∞ < NaN. -/
def orderKey (x : Binary64) : Int :=
  if x.negative then -(x.magnitude : Int) - 1 else x.magnitude

/-- A natural number that double precision holds exactly. -/
def ofNat (n : Nat) : Binary64 :=
  if n = 0 then zero
  else
    let place := (n.log2 + 1022) * 2 ^ 52 + n * 2 ^ 52 / 2 ^ n.log2
    atPlace false place

theorem isFinite_iff {x : Binary64} : x.isFinite = true ↔ x.magnitude < infinityPlace := by
  simp [isFinite]

theorem orderKey_injective {x y : Binary64} (h : x.orderKey = y.orderKey) : x = y := by
  obtain ⟨nx, mx, hx⟩ := x
  obtain ⟨ny, my, hy⟩ := y
  simp only [orderKey] at h
  cases nx <;> cases ny <;> simp at h ⊢ <;> omega

end Binary64

end Blockwork
