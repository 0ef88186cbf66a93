import Blockwork.Proofs.Source.Brackets
import Blockwork.Proofs.Source.TwinTokens

/-!
# The brackets of tokens

The tokens of nested code have balanced brackets, and its literals are strings that end in the
lines in which they begin (`IsNested.tokens`). Plain characters keep the machine outside of
literals and comments. There each character adds the brackets that it has to those of the tokens
(`Lexer.bracketsOf_step`), and completes no literal (`Lexer.endsInLine_step`).
-/

namespace Blockwork.Source

/-- The brackets of a token. Literals have none, whatever they say. -/
def Token.brackets : Token → List Char
  | operator text => text.toList.filter isBracket
  | _ => []

variable {a : Alphabet} {c : Char} {cs opened last : List Char}

/-- The brackets of tokens. -/
def bracketsOf (tokens : List Token) : List Char :=
  tokens.flatMap Token.brackets

theorem bracketsOf_append (first second : List Token) :
    bracketsOf (first ++ second) = bracketsOf first ++ bracketsOf second :=
  List.flatMap_append

/-- If the token is a literal, it is an interpreted string that ends in the line in which it
begins. -/
def Token.EndsInLine : Token → Prop
  | literal delimiter text closed => delimiter = '"' ∧ closed = true ∧ '\n' ∉ text.toList
  | _ => True

namespace Lexer

open Reading

theorem bracketsOf_lineEnd (ends : Bool) : bracketsOf (lineEnd ends) = [] := by
  cases ends <;> rfl

theorem not_isBracket_of_isWordPart (word : a.isWordPart c = true) : isBracket c = false :=
  not_isBracket_of_class word (Eq.refl _)

theorem not_isBracket_of_isDigit (digit : Text.isDigit c = true) : isBracket c = false :=
  not_isBracket_of_class digit (by decide)

theorem not_isBracket_of_next? {numeral next : Numeral} (goes : numeral.next? c = some next) :
    isBracket c = false := by
  refine not_isBracket_of_class (p := fun c => (numeral.next? c).isSome) ?_ ?_
  · rw [goes]
    rfl
  · cases numeral with
    | whole hex => cases hex <;> decide
    | fraction hex => cases hex <;> decide
    | zero | exponent | power | imaginary => decide

theorem bracketsOf_operator (marks : List Char) :
    bracketsOf (operator marks).tokens = marks.filter isBracket := by
  simp only [Reading.tokens]
  split
  · rename_i dots
    rw [dots]
    decide
  · simp [bracketsOf, Token.brackets]

/-- A plain character is read into a token with the brackets that it has. -/
theorem bracketsOf_start (ends : Bool) (isPlain : IsPlain c) :
    bracketsOf ((start a ends c).2 ++ (start a ends c).1.reading.tokens) =
      [c].filter isBracket := by
  obtain ⟨noString, noRune, noRaw, -⟩ := isPlain
  have none : isBracket c = false → [c].filter isBracket = [] := by
    intro other
    rw [List.filter_cons_of_neg (Bool.eq_false_iff.mp other), List.filter_nil]
  unfold start
  rw [if_neg (c := c = '"' ∨ c = '\x27') (by rintro (same | same) <;> contradiction),
    if_neg noRaw]
  split
  · rename_i newline
    subst newline
    rw [bracketsOf_append, bracketsOf_lineEnd]
    rfl
  split
  · rename_i space
    rcases space with rfl | rfl | rfl <;> rfl
  split
  · rename_i letter
    rw [none (not_isBracket_of_isWordPart (a := a) (by simp [Alphabet.isWordPart, letter]))]
    rfl
  split
  · rename_i digit
    rw [none (not_isBracket_of_isDigit digit)]
    rfl
  split
  · rw [List.nil_append, bracketsOf_operator]
  · rename_i noOperator
    have other : isBracket c = false := by
      cases bracket : isBracket c with
      | false => rfl
      | true =>
        have all : (['(', ')', '[', ']', '{', '}'].all fun b =>
            decide (String.singleton b ∈ operators)) = true := by decide
        have here := List.all_eq_true.mp all c (List.contains_iff_mem.mp bracket)
        exact absurd (of_decide_eq_true here) noOperator
    rw [none other]
    rfl

theorem bracketsOf_leave (s : Lexer) (isPlain : IsPlain c) :
    bracketsOf ((leave a s c).2 ++ (leave a s c).1.reading.tokens) =
      bracketsOf s.reading.tokens ++ [c].filter isBracket := by
  unfold leave
  simp only
  rw [List.append_assoc, bracketsOf_append, bracketsOf_start _ isPlain]

/-- Outside of literals and comments, a plain character adds the brackets that it has to those
that have been read. -/
theorem bracketsOf_step {s : Lexer} (outside : s.reading.Outside) (isPlain : IsPlain c) :
    bracketsOf ((s.step a c).2 ++ (s.step a c).1.reading.tokens) =
      bracketsOf s.reading.tokens ++ [c].filter isBracket := by
  have none : isBracket c = false → [c].filter isBracket = [] := by
    intro other
    rw [List.filter_cons_of_neg (Bool.eq_false_iff.mp other), List.filter_nil]
  unfold step
  cases reading : s.reading with
  | between => exact bracketsOf_start _ isPlain
  | word letters =>
    simp only
    split
    · rename_i part
      rw [none (not_isBracket_of_isWordPart part)]
      rfl
    · rw [bracketsOf_leave s isPlain, reading]
  | number numeral digits =>
    simp only
    split
    · rename_i goes
      rw [none (not_isBracket_of_next? goes)]
      rfl
    · rw [bracketsOf_leave s isPlain, reading]
  | operator marks =>
    rw [reading] at outside
    have noSlash : marks ≠ ['/'] := outside
    simp only
    unfold stepOperator
    rw [if_neg fun both => noSlash both.1, if_neg fun both => noSlash both.1]
    split
    · rename_i fraction
      obtain ⟨rfl, digit⟩ := fraction
      rw [none (not_isBracket_of_isDigit digit), bracketsOf_operator]
      rfl
    split
    · rename_i fraction
      obtain ⟨rfl, digit⟩ := fraction
      rw [none (not_isBracket_of_isDigit digit), bracketsOf_operator]
      rfl
    split
    · rw [List.nil_append, bracketsOf_operator, bracketsOf_operator, List.filter_append]
    · rw [bracketsOf_leave ⟨operator marks, s.ends⟩ isPlain]
  | quoted | raw | lineComment | blockComment =>
    rw [reading] at outside
    exact outside.elim

/-- The brackets of the tokens of code lead from stack to stack as the code does. -/
theorem bracketsOf_run {s : Lexer} (nests : Nests opened cs last)
    (outside : s.reading.Outside) :
    ∃ marks, bracketsOf (run a s cs) = bracketsOf s.reading.tokens ++ marks ∧
      brackets? opened marks = some last := by
  induction nests generalizing s with
  | nil opened =>
    refine ⟨[], ?_, rfl⟩
    rw [run, bracketsOf_append, bracketsOf_lineEnd]
  | @plain c opened next cs last isPlain here rest ih =>
    obtain ⟨marks, told, leads⟩ := ih (s := (s.step a c).1) (outside_step outside isPlain)
    refine ⟨[c].filter isBracket ++ marks, ?_, ?_⟩
    · rw [run, bracketsOf_append, told, ← List.append_assoc, ← bracketsOf_append,
        bracketsOf_step outside isPlain, List.append_assoc]
    · have first : brackets? opened ([c].filter isBracket) = some next := by
        rw [brackets?_filter, brackets?_cons, here]
        rfl
      rw [brackets?_append first, leads]
  | @literal text opened cs last rest ih =>
    obtain ⟨marks, told, leads⟩ := ih (s := ⟨between, true⟩) trivial
    refine ⟨marks, ?_, leads⟩
    rw [run_quoteChars outside, bracketsOf_append]
    exact congrArg _ told

/-! ### Literals in their lines -/

theorem endsInLine_lineEnd (ends : Bool) : ∀ token ∈ lineEnd ends, token.EndsInLine := by
  cases ends with
  | false => exact nofun
  | true => exact List.forall_mem_singleton.mpr trivial

theorem endsInLine_tokens {reading : Reading} (outside : reading.Outside) :
    ∀ token ∈ reading.tokens, token.EndsInLine := by
  cases reading with
  | between => exact nofun
  | word letters => exact List.forall_mem_singleton.mpr trivial
  | number numeral digits => exact List.forall_mem_singleton.mpr trivial
  | operator marks =>
    simp only [Reading.tokens]
    split
    · exact List.forall_mem_cons.mpr ⟨trivial, List.forall_mem_singleton.mpr trivial⟩
    · exact List.forall_mem_singleton.mpr trivial
  | quoted | raw | lineComment | blockComment => exact outside.elim

theorem endsInLine_start (ends : Bool) (c : Char) :
    ∀ token ∈ (start a ends c).2, token.EndsInLine := by
  unfold start
  split
  · exact endsInLine_lineEnd ends
  repeat' split
  all_goals first
    | exact List.forall_mem_singleton.mpr trivial
    | exact List.forall_mem_nil _

theorem endsInLine_leave {s : Lexer} (outside : s.reading.Outside) (c : Char) :
    ∀ token ∈ (leave a s c).2, token.EndsInLine := by
  intro token mem
  rcases List.mem_append.mp mem with left | started
  · exact endsInLine_tokens outside token left
  · exact endsInLine_start _ c token started

/-- A character that is read outside of literals and comments completes no literal. -/
theorem endsInLine_step {s : Lexer} (outside : s.reading.Outside) (c : Char) :
    ∀ token ∈ (s.step a c).2, token.EndsInLine := by
  have leaves := endsInLine_leave (a := a) outside c
  unfold step
  cases reading : s.reading with
  | between => exact endsInLine_start _ c
  | word letters =>
    simp only
    split
    · exact nofun
    · exact leaves
  | number numeral digits =>
    simp only
    split
    · exact nofun
    · exact leaves
  | operator marks =>
    rw [reading] at outside
    simp only
    unfold stepOperator
    repeat' split
    all_goals first
      | exact List.forall_mem_nil _
      | exact List.forall_mem_singleton.mpr trivial
      | exact endsInLine_leave (s := ⟨operator marks, s.ends⟩) outside c
  | quoted | raw | lineComment | blockComment =>
    rw [reading] at outside
    exact outside.elim

/-- Every literal among the tokens of code that nests is a string that ends in its line. -/
theorem endsInLine_run {s : Lexer} (nests : Nests opened cs last)
    (outside : s.reading.Outside) : ∀ token ∈ run a s cs, token.EndsInLine := by
  induction nests generalizing s with
  | nil opened =>
    intro token mem
    rcases List.mem_append.mp mem with left | ended
    · exact endsInLine_tokens outside token left
    · exact endsInLine_lineEnd _ token ended
  | plain isPlain here rest ih =>
    intro token mem
    rcases List.mem_append.mp mem with complete | later
    · exact endsInLine_step outside _ token complete
    · exact ih (outside_step outside isPlain) token later
  | literal text rest ih =>
    intro token mem
    rw [run_quoteChars outside] at mem
    rcases List.mem_append.mp mem with left | mem
    · exact endsInLine_tokens outside token left
    rcases List.mem_cons.mp mem with rfl | later
    · refine ⟨rfl, rfl, fun newline => ?_⟩
      rw [String.toList_ofList] at newline
      obtain ⟨c, -, inside⟩ := List.mem_flatMap.mp newline
      exact newline_not_mem_escape c inside
    · exact ih (s := ⟨between, true⟩) trivial token later

end Lexer

/-- The literals of nested code are strings that end in their lines, and the brackets of its
tokens are balanced. -/
theorem IsNested.tokens {code : String} (nested : IsNested code) (a : Alphabet) :
    (∀ token ∈ tokens a code, token.EndsInLine) ∧ Balanced (bracketsOf (tokens a code)) := by
  refine ⟨Lexer.endsInLine_run (nested []) trivial, ?_⟩
  obtain ⟨marks, told, leads⟩ := Lexer.bracketsOf_run (a := a) (s := {}) (nested []) trivial
  unfold Balanced Source.tokens
  rw [told]
  exact leads

end Blockwork.Source
