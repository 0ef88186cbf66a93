import Blockwork.Decimal.Shortest
import Blockwork.Proofs.Decimal.NumberText

/-!
# Digits without leading zeros

The digits of a natural number give the number back, and those of a positive one start with no
zero. The shortest decimal of a number other than zero has positive digits: a rounding interval
does not reach down to zero (`Binary64.digits_shortest_pos`). In positional notation such a
decimal therefore has, in front of the point, a lone zero or digits that start with none.
-/

namespace Blockwork

/-! ### Digits of natural numbers -/

theorem digitsValue_digitsOf (n : Nat) : digitsValue (digitsOf n) = n :=
  Nat.ofDigitChars_toDigits (by decide) (by decide)

theorem digitsOf_ne_nil (n : Nat) : digitsOf n ≠ [] :=
  Nat.toDigits_ne_nil

/-- The digits of a positive number start with no zero. -/
theorem head?_digitsOf_ne_zero {n : Nat} (positive : 0 < n) : (digitsOf n).head? ≠ some '0' := by
  induction n using Nat.strongRecOn with
  | ind n ih =>
    unfold digitsOf
    by_cases small : n < 10
    · rw [Nat.toDigits_of_lt_base small]
      have digits : ∀ k < 10, 0 < k → [Nat.digitChar k].head? ≠ some '0' := by decide
      exact digits n small positive
    · obtain ⟨c, cs, leading⟩ := List.exists_cons_of_ne_nil (digitsOf_ne_nil (n / 10))
      have first := ih (n / 10) (by omega) (by omega)
      unfold digitsOf at leading first
      rw [leading] at first
      rw [Nat.toDigits_of_base_le (by decide) (by omega), leading]
      exact first

/-! ### Shortest decimals -/

theorem Decimal.digits_stripZeros_pos {d : Decimal} (positive : 0 < d.digits) (fuel : Nat) :
    0 < (d.stripZeros fuel).digits := by
  induction fuel generalizing d with
  | zero => exact positive
  | succ fuel ih =>
    rw [stripZeros]
    split
    · rename_i dropped
      refine ih ?_
      show 0 < d.digits / 10
      omega
    · exact positive

namespace Binary64

variable {x : Binary64} {tie : Tie}

theorem RoundingInterval.holds_of_pick? {r : RoundingInterval} {a : Nat}
    (picked : r.pick? tie = some a) : r.holds a = true := by
  unfold pick? at picked
  simp only at picked
  split at picked
  · rename_i below above
    split at picked
    · exact Option.some.inj picked ▸ below
    · split at picked
      · exact Option.some.inj picked ▸ above
      · cases tie with
        | upward => exact Option.some.inj picked ▸ above
        | toEven =>
          -- The even neighbour is one of the two.
          rcases Nat.mod_two_eq_zero_or_one (r.value / r.unit) with even | odd
          · rw [even] at picked
            exact Option.some.inj picked ▸ below
          · rw [odd] at picked
            exact Option.some.inj picked ▸ above
  · rename_i below _
    exact Option.some.inj picked ▸ below
  · rename_i above
    exact Option.some.inj picked ▸ above
  · exact nomatch picked

/-- An interval above zero holds no zero. -/
theorem RoundingInterval.pos_of_holds {r : RoundingInterval} {a : Nat} (above : 0 < r.low)
    (holds : r.holds a = true) : 0 < a := by
  rcases Nat.eq_zero_or_pos a with rfl | positive
  · unfold RoundingInterval.holds at holds
    rw [Nat.zero_mul] at holds
    split at holds
    · rw [Bool.and_eq_true, decide_eq_true_eq] at holds
      omega
    · rw [Bool.and_eq_true, decide_eq_true_eq] at holds
      omega
  · exact positive

theorem significand_pos (nonzero : x.magnitude ≠ 0) : 0 < x.significand := by
  unfold significand
  split <;> omega

theorem low_roundingInterval_pos (nonzero : x.magnitude ≠ 0) : 0 < x.roundingInterval.low := by
  have positive := significand_pos nonzero
  unfold roundingInterval
  simp only
  refine Nat.mul_pos ?_ ?_
  · split <;> omega
  · split
    · exact Nat.two_pow_pos _
    · exact Nat.one_pos

theorem digits_exactDecimal_pos (nonzero : x.magnitude ≠ 0) : 0 < x.exactDecimal.digits := by
  have positive := significand_pos nonzero
  unfold exactDecimal
  split
  · exact Nat.mul_pos positive (Nat.two_pow_pos _)
  · exact Nat.mul_pos positive (Nat.pow_pos (by decide))

/-- The shortest decimal of a number other than zero is not zero. -/
theorem digits_shortest_pos (tie : Tie) (nonzero : x.magnitude ≠ 0) :
    0 < (x.shortest tie).digits := by
  unfold shortest
  rw [if_neg nonzero]
  refine Decimal.digits_stripZeros_pos ?_ _
  cases found : (List.range 17).findSome? fun (n : Nat) =>
      ((x.roundingInterval.onGrid
          (floorLog10 x.roundingInterval.value x.roundingInterval.unit - n)).pick? tie).map
        fun digits =>
          (⟨digits, floorLog10 x.roundingInterval.value x.roundingInterval.unit - n⟩ : Decimal) with
  | none => exact digits_exactDecimal_pos nonzero
  | some d =>
    obtain ⟨n, -, gave⟩ := List.exists_of_findSome?_eq_some found
    obtain ⟨digits, picked, rfl⟩ := Option.map_eq_some_iff.mp gave
    refine RoundingInterval.pos_of_holds ?_ (RoundingInterval.holds_of_pick? picked)
    unfold RoundingInterval.onGrid
    simp only
    refine Nat.mul_pos (low_roundingInterval_pos nonzero) ?_
    split
    · exact Nat.one_pos
    · exact Nat.pow_pos (by decide)

end Binary64

end Blockwork
