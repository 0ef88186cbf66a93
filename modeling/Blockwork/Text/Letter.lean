import Blockwork.Text.LetterTable

/-!
# Letters, numbers and words

`isLetter` is the Unicode property Alphabetic and `isNumber` the general categories Nd, Nl
and No. A *word* character is a letter, a number or an underscore; an identifier starts with
a letter or an underscore and goes on with word characters. Hexadecimal digits are written in
lower case and read in either case.
-/

namespace Blockwork.Text

/-- Whether a code point lies in one of the ranges of one of the tables. -/
def inTables (tables : List (List (Nat × Nat))) (n : Nat) : Bool :=
  tables.any fun table => table.any fun range => range.1 ≤ n && n ≤ range.2

/-- A digit `0` to `9`. -/
def isDigit (c : Char) : Bool :=
  '0' ≤ c && c ≤ '9'

/-- A character of the Unicode property Alphabetic. -/
def isLetter (c : Char) : Bool :=
  if c.toNat < 0x80 then ('a' ≤ c && c ≤ 'z') || ('A' ≤ c && c ≤ 'Z')
  else inTables letterTables c.toNat

/-- A character of the general categories Nd, Nl or No. -/
def isNumber (c : Char) : Bool :=
  if c.toNat < 0x80 then isDigit c
  else inTables numberTables c.toNat

/-- A letter or an underscore: what an identifier may start with. -/
def isWordStart (c : Char) : Bool :=
  isLetter c || c == '_'

/-- A letter or a number. -/
def isLetterOrNumber (c : Char) : Bool :=
  isLetter c || isNumber c

/-- A letter, a number or an underscore: what an identifier may go on with. -/
def isWordPart (c : Char) : Bool :=
  isLetterOrNumber c || c == '_'

/-- Whether the characters form an identifier. -/
def isIdentifierChars : List Char → Bool
  | [] => false
  | c :: rest => isWordStart c && rest.all isWordPart

/-- Whether a text is an identifier. -/
def isIdentifier (s : String) : Bool :=
  isIdentifierChars s.toList

theorem isWordPart_of_isWordStart {c : Char} (h : isWordStart c = true) :
    isWordPart c = true := by
  simp only [isWordStart, isWordPart, isLetterOrNumber, Bool.or_eq_true] at h ⊢
  rcases h with h | h
  · exact Or.inl (Or.inl h)
  · exact Or.inr h

/-! ### Hexadecimal digits -/

/-- The digit of a number below sixteen, in lower case. -/
def hexDigit (n : Nat) : Char :=
  if n < 10 then Char.ofNat (0x30 + n) else Char.ofNat (0x61 + (n - 10))

/-- The value of a digit in either case. -/
def hexValue? (c : Char) : Option Nat :=
  if '0' ≤ c ∧ c ≤ '9' then some (c.toNat - 0x30)
  else if 'a' ≤ c ∧ c ≤ 'f' then some (c.toNat - 0x61 + 10)
  else if 'A' ≤ c ∧ c ≤ 'F' then some (c.toNat - 0x41 + 10)
  else none

/-- A digit is read back as its number. -/
theorem hexValue?_hexDigit {n : Nat} (h : n < 16) : hexValue? (hexDigit n) = some n := by
  have all : ∀ k ∈ List.range 16, hexValue? (hexDigit k) = some k := by decide
  exact all n (List.mem_range.2 h)

end Blockwork.Text
