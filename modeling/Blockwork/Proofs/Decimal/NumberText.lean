import Blockwork.Decimal.Text
import Blockwork.Proofs.Text.Classes

/-!
# The characters of numbers

The text of a finite number is made of digits, a sign and a point
(`Binary64.isNumberMark_of_mem_numberText`), and no number has an empty text.
-/

namespace Blockwork

variable {c : Char}

theorem isDigit_of_mem_digitsOf {n : Nat} (mem : c ∈ digitsOf n) : Text.isDigit c = true := by
  have digit := Nat.isDigit_of_mem_toDigits (by decide) (by decide) mem
  simpa [Char.isDigit, Text.isDigit, Char.le_def] using digit

theorem Decimal.isDigit_of_mem_positional {d : Decimal}
    (mem : c ∈ d.positional.1 ∨ c ∈ d.positional.2) : Text.isDigit c = true := by
  have zeros : ∀ {n : Nat}, c ∈ List.replicate n '0' → Text.isDigit c = true := by
    intro n inside
    rw [List.eq_of_mem_replicate inside]
    decide
  unfold positional at mem
  simp only at mem
  split at mem
  · rcases mem with whole | fraction
    · rcases List.mem_append.mp whole with digit | zero
      · exact isDigit_of_mem_digitsOf digit
      · exact zeros zero
    · exact absurd fraction List.not_mem_nil
  · split at mem
    · rcases mem with whole | fraction
      · exact isDigit_of_mem_digitsOf (List.mem_of_mem_take whole)
      · exact isDigit_of_mem_digitsOf (List.mem_of_mem_drop fraction)
    · rcases mem with whole | fraction
      · rw [List.mem_singleton.mp whole]
        decide
      · rcases List.mem_append.mp fraction with zero | digit
        · exact zeros zero
        · exact isDigit_of_mem_digitsOf digit

namespace Binary64

variable {x : Binary64}

theorem isNumberMark_of_mem_display (finite : x.isFinite = true) (mem : c ∈ x.display.toList) :
    Text.isNumberMark c = true := by
  have number : x.isNaN = false := by
    rw [isFinite_iff] at finite
    exact decide_eq_false (by omega)
  unfold display at mem
  rw [number, if_neg (by decide)] at mem
  simp only [finite, if_true, String.toList_ofList, List.append_assoc] at mem
  rcases List.mem_append.mp mem with sign | digits
  · split at sign
    · rw [List.mem_singleton.mp sign]
      decide
    · exact absurd sign List.not_mem_nil
  · rcases List.mem_append.mp digits with whole | behind
    · exact Text.isNumberMark_of_isDigit (Decimal.isDigit_of_mem_positional (.inl whole))
    · split at behind
      · exact absurd behind List.not_mem_nil
      · rcases List.mem_cons.mp behind with rfl | fraction
        · decide
        · exact Text.isNumberMark_of_isDigit (Decimal.isDigit_of_mem_positional (.inr fraction))

theorem isNumberMark_of_mem_toString {n : Int} (mem : c ∈ (toString n).toList) :
    Text.isNumberMark c = true := by
  have digits : ∀ {m : Nat}, c ∈ m.repr.toList → Text.isNumberMark c = true := by
    intro m inside
    rw [Nat.toList_repr] at inside
    exact Text.isNumberMark_of_isDigit (isDigit_of_mem_digitsOf inside)
  rw [Int.toString_eq_repr, Int.repr_eq_if] at mem
  split at mem
  · exact digits mem
  · rw [String.toList_append] at mem
    rcases List.mem_append.mp mem with sign | digit
    · rw [List.mem_singleton.mp sign]
      decide
    · exact digits digit

theorem isNumberMark_of_mem_numberText (finite : x.isFinite = true)
    (mem : c ∈ x.numberText.toList) : Text.isNumberMark c = true := by
  unfold numberText at mem
  split at mem
  · split at mem
    · exact isNumberMark_of_mem_toString mem
    · exact isNumberMark_of_mem_display finite mem
  · exact isNumberMark_of_mem_display finite mem

end Binary64

/-! ### Numbers have texts -/

theorem Decimal.positional_ne_nil (d : Decimal) : d.positional.1 ≠ [] := by
  have digits : digitsOf d.digits ≠ [] := Nat.toDigits_ne_nil
  unfold positional
  simp only
  split
  · exact List.append_ne_nil_of_left_ne_nil digits _
  · split
    · rename_i inside
      intro none
      have length := congrArg List.length none
      rw [List.length_take, List.length_nil] at length
      omega
    · exact List.cons_ne_nil _ _

namespace Binary64

theorem display_ne_empty (x : Binary64) : x.display ≠ "" := by
  unfold display
  split
  · decide
  · simp only
    split
    · intro none
      have nothing := congrArg String.toList none
      simp [Decimal.positional_ne_nil] at nothing
    · intro none
      have nothing := congrArg String.toList none
      simp at nothing

theorem toString_ne_empty (n : Int) : toString n ≠ "" := by
  have digits : ∀ m : Nat, m.repr ≠ "" := by
    intro m none
    have nothing := congrArg String.toList none
    rw [Nat.toList_repr] at nothing
    exact Nat.toDigits_ne_nil nothing
  rw [Int.toString_eq_repr, Int.repr_eq_if]
  split
  · exact digits _
  · simp

theorem numberText_ne_empty (x : Binary64) : x.numberText ≠ "" := by
  unfold numberText
  split
  · split
    · exact toString_ne_empty _
    · exact x.display_ne_empty
  · exact x.display_ne_empty

end Binary64

end Blockwork
