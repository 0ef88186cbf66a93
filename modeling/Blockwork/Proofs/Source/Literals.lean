import Blockwork.Source.Literal

/-!
# The inside of literals

What escaping can leave inside an interpreted literal: characters that stand for themselves, and
backslashes that are followed by something other than a newline (`escape_shape`). So a literal
stays in its line (`newline_not_mem_quoteChars`). Its quotes are always there.
-/

namespace Blockwork.Source

/-- A character that stands for itself inside an interpreted literal. -/
def IsOrdinary (c : Char) : Prop :=
  c ≠ '"' ∧ c ≠ '\\' ∧ c ≠ '\n'

instance (c : Char) : Decidable (IsOrdinary c) :=
  inferInstanceAs (Decidable (_ ∧ _ ∧ _))

theorem isOrdinary_hexDigit {n : Nat} (small : n < 16) : IsOrdinary (Text.hexDigit n) := by
  have all : ∀ k ∈ List.range 16, IsOrdinary (Text.hexDigit k) := by decide
  exact all n (List.mem_range.mpr small)

/-- A character is written as a backslash with something behind it, or as it is. -/
theorem escape_shape (c : Char) :
    (∃ d rest, escape c = '\\' :: d :: rest ∧ d ≠ '\n' ∧ ∀ e ∈ rest, IsOrdinary e) ∨
      (escape c = [c] ∧ IsOrdinary c) := by
  by_cases special : c = '"' ∨ c = '\\' ∨ c = '\n' ∨ c = '\r' ∨ c = '\t'
  · left
    rcases special with rfl | rfl | rfl | rfl | rfl <;>
      exact ⟨_, [], rfl, by decide, nofun⟩
  · simp only [not_or] at special
    obtain ⟨noQuote, noEscape, noLine, noReturn, noTab⟩ := special
    unfold escape
    rw [if_neg noQuote, if_neg noEscape, if_neg noLine, if_neg noReturn, if_neg noTab]
    split
    · -- Behind the backslash and the letter stand two hexadecimal digits.
      rename_i control
      have small : c.toNat < 0x80 := by
        simp only [Bool.or_eq_true, decide_eq_true_eq] at control
        omega
      refine .inl ⟨'x', _, rfl, by decide, fun e mem => ?_⟩
      rcases List.mem_cons.mp mem with rfl | mem
      · exact isOrdinary_hexDigit (by omega)
      · obtain rfl := List.mem_singleton.mp mem
        exact isOrdinary_hexDigit (by omega)
    · exact .inr ⟨rfl, noQuote, noEscape, noLine⟩

theorem newline_not_mem_escape (c : Char) : '\n' ∉ escape c := by
  intro mem
  rcases escape_shape c with ⟨d, rest, shape, other, ordinary⟩ | ⟨shape, ordinary⟩
  · rw [shape] at mem
    rcases List.mem_cons.mp mem with same | mem
    · exact absurd same (by decide)
    rcases List.mem_cons.mp mem with same | mem
    · exact other same.symm
    · exact (ordinary _ mem).2.2 rfl
  · rw [shape] at mem
    exact ordinary.2.2 (List.mem_singleton.mp mem).symm

/-- A literal stays in its line. -/
theorem newline_not_mem_quoteChars (cs : List Char) : '\n' ∉ quoteChars cs := by
  intro mem
  rcases List.mem_cons.mp mem with same | mem
  · exact absurd same (by decide)
  rcases List.mem_append.mp mem with mem | mem
  · obtain ⟨c, -, inside⟩ := List.mem_flatMap.mp mem
    exact newline_not_mem_escape c inside
  · exact absurd (List.mem_singleton.mp mem) (by decide)

theorem quote_ne_empty (s : String) : quote s ≠ "" := by
  intro none
  have nothing := congrArg String.toList none
  rw [toList_quote] at nothing
  exact nomatch nothing

end Blockwork.Source
