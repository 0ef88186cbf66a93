import Blockwork.Text.Blank
import Blockwork.Text.Letter

/-!
# Character classes

How the classes of characters lie to each other: blanks and digits are no part of what starts a
word, blanks are no part of a word at all.
-/

namespace Blockwork.Text

variable {c mark : Char}

/-- The ranges of blank characters above U+007F. -/
private def blankRanges : List (Nat × Nat) :=
  [(0x85, 0x85), (0xA0, 0xA0), (0x1680, 0x1680), (0x2000, 0x200A), (0x2028, 0x2029),
    (0x202F, 0x202F), (0x205F, 0x205F), (0x3000, 0x3000)]

private theorem blank_place (blank : isBlank c = true) :
    c.toNat ≤ 0x20 ∨ ∃ range ∈ blankRanges, range.1 ≤ c.toNat ∧ c.toNat ≤ range.2 := by
  simp only [isBlank, Bool.or_eq_true, Bool.and_eq_true, decide_eq_true_eq, beq_iff_eq] at blank
  simp only [blankRanges, List.mem_cons, List.not_mem_nil, or_false, exists_eq_or_imp,
    exists_eq_left]
  omega

/-- Tables without blanks have none of the blank characters above U+007F. -/
private theorem not_inTables {tables : List (List (Nat × Nat))} {blank : Nat × Nat} {n : Nat}
    (apart : (tables.all fun table => table.all fun range =>
      blankRanges.all fun blank => Nat.blt blank.2 range.1 || Nat.blt range.2 blank.1) = true)
    (mem : blank ∈ blankRanges) (low : blank.1 ≤ n) (high : n ≤ blank.2) :
    inTables tables n = false := by
  refine List.any_eq_false.mpr fun table listed found => ?_
  obtain ⟨range, among, inside⟩ := List.any_eq_true.mp found
  rw [Bool.and_eq_true, decide_eq_true_eq, decide_eq_true_eq] at inside
  have here := List.all_eq_true.mp (List.all_eq_true.mp (List.all_eq_true.mp apart table listed)
    range among) blank mem
  simp only [Bool.or_eq_true, Nat.blt_eq] at here
  omega

/-- No blank is part of a word. -/
theorem not_isWordPart_of_isBlank (blank : isBlank c = true) : isWordPart c = false := by
  rcases blank_place blank with small | ⟨range, mem, low, high⟩
  · have all : ∀ n ∈ List.range 0x21, isWordPart (Char.ofNat n) = false := by decide
    have here := all c.toNat (List.mem_range.mpr (by omega))
    rwa [Char.ofNat_toNat] at here
  · have above : (blankRanges.all fun range => decide (0x80 ≤ range.1)) = true := by decide
    have start := of_decide_eq_true (List.all_eq_true.mp above range mem)
    have large : ¬ c.toNat < 0x80 := by omega
    have noLetter : isLetter c = false := by
      rw [isLetter, if_neg large]
      exact not_inTables (by decide +kernel) mem low high
    have noNumber : isNumber c = false := by
      rw [isNumber, if_neg large]
      exact not_inTables (by decide +kernel) mem low high
    have noUnderscore : (c == '_') = false := by
      refine beq_false_of_ne ?_
      rintro rfl
      exact large (by decide)
    rw [isWordPart, isLetterOrNumber, noLetter, noNumber, noUnderscore]
    rfl

/-- An identifier has nothing in it but what words are made of. -/
theorem isWordPart_of_mem {name : String} (word : isIdentifier name = true)
    (mem : c ∈ name.toList) : isWordPart c = true := by
  unfold isIdentifier at word
  cases letters : name.toList with
  | nil => exact absurd (letters ▸ mem) List.not_mem_nil
  | cons first rest =>
    rw [letters] at mem word
    rw [isIdentifierChars, Bool.and_eq_true, List.all_eq_true] at word
    rcases List.mem_cons.mp mem with rfl | later
    · exact isWordPart_of_isWordStart word.1
    · exact word.2 c later

theorem not_isWordStart_of_isBlank (blank : isBlank c = true) : isWordStart c = false := by
  cases word : isWordStart c with
  | false => rfl
  | true =>
    have part := isWordPart_of_isWordStart word
    rw [not_isWordPart_of_isBlank blank] at part
    exact absurd part (by decide)

/-! ### Digits -/

theorem toNat_of_isDigit (digit : isDigit c = true) : 0x30 ≤ c.toNat ∧ c.toNat ≤ 0x39 := by
  simp only [isDigit, Bool.and_eq_true, decide_eq_true_eq, Char.le_def,
    UInt32.le_iff_toNat_le] at digit
  exact digit

theorem isWordPart_of_isDigit (digit : isDigit c = true) : isWordPart c = true := by
  have := toNat_of_isDigit digit
  have small : c.toNat < 0x80 := by omega
  simp [isWordPart, isLetterOrNumber, isNumber, small, digit]

theorem not_isDigit_of_isBlank (blank : isBlank c = true) : isDigit c = false := by
  cases digit : isDigit c with
  | false => rfl
  | true =>
    have part := isWordPart_of_isDigit digit
    rw [not_isWordPart_of_isBlank blank] at part
    exact absurd part (by decide)

/-- What holds of the ten digits holds of every digit. -/
theorem forall_isDigit {p : Char → Prop}
    (all : ∀ n ∈ List.range 10, p (Char.ofNat (0x30 + n))) (digit : isDigit c = true) : p c := by
  have bounds := toNat_of_isDigit digit
  have here := all (c.toNat - 0x30) (List.mem_range.mpr (by omega))
  rwa [Nat.add_sub_cancel' bounds.1, Char.ofNat_toNat] at here

/-- No digit starts a word. -/
theorem not_isDigit_of_isWordStart (word : isWordStart c = true) : isDigit c = false := by
  cases digit : isDigit c with
  | false => rfl
  | true =>
    have here : isWordStart c = false :=
      forall_isDigit (p := fun c => isWordStart c = false) (by decide) digit
    rw [word] at here
    exact absurd here (by decide)

/-- A character of the text of a finite number. -/
def isNumberMark (c : Char) : Bool :=
  isDigit c || c == '-' || c == '.'

theorem isNumberMark_of_isDigit (digit : isDigit c = true) : isNumberMark c = true := by
  unfold isNumberMark
  rw [digit]
  rfl

theorem isNumberMark_iff : isNumberMark c = true ↔ isDigit c = true ∨ c = '-' ∨ c = '.' := by
  unfold isNumberMark
  rw [Bool.or_eq_true, Bool.or_eq_true, beq_iff_eq, beq_iff_eq, or_assoc]

/-! ### Tests -/

/-- A test of every character of a text. The bounded statement itself is no test, because
deciding it can mean going through all characters there are. -/
theorem forall_mem_of_all {p : Char → Prop} [DecidablePred p] {cs : List Char}
    (all : (cs.all fun c => decide (p c)) = true) : ∀ c ∈ cs, p c := by
  intro c mem
  exact of_decide_eq_true (List.all_eq_true.mp all c mem)

/-! ### Marks -/

/-- A character of a class is none of the marks outside of it. -/
theorem ne_of_class {p : Char → Bool} (inside : p c = true) (outside : p mark = false) :
    c ≠ mark := by
  rintro rfl
  rw [inside] at outside
  exact absurd outside (by decide)

theorem not_quote_of_class {p : Char → Bool} (inside : p c = true) (noString : p '"' = false)
    (noRune : p '\x27' = false) : ¬ (c = '"' ∨ c = '\x27') := by
  rintro (same | same)
  · exact ne_of_class inside noString same
  · exact ne_of_class inside noRune same

end Blockwork.Text
