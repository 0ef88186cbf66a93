import Blockwork.Proofs.Source.Tokens
import Blockwork.Proofs.Source.Twins

/-!
# The tokens of twins

Twins have the same tokens, except for what their strings say (`Twins.tokens_eq`). Plain
characters keep the machine `Outside` of literals and comments, where it reads the same of both;
and a literal that begins outside is one token, behind which the machine is in the same state
whatever the literal says (`Lexer.run_quoteChars`).
-/

namespace Blockwork.Source

open Reading

variable {a : Alphabet} {c : Char} {cs : List Char}

/-- Neither inside a literal or a comment nor behind the slash that may open a comment. -/
def Reading.Outside : Reading → Prop
  | between | word _ | number .. => True
  | operator marks => marks ≠ ['/']
  | quoted .. | raw _ | lineComment | blockComment .. => False

namespace Lexer

/-! ### Plain characters -/

theorem outside_start (ends : Bool) (isPlain : IsPlain c) :
    (start a ends c).1.reading.Outside := by
  obtain ⟨noString, noRune, noRaw, noSlash⟩ := isPlain
  unfold start
  rw [if_neg (c := c = '"' ∨ c = '\x27') (by rintro (same | same) <;> contradiction),
    if_neg noRaw]
  repeat' split
  all_goals first | trivial | exact fun same => noSlash (List.cons.inj same).1

theorem outside_leave (s : Lexer) (isPlain : IsPlain c) : (leave a s c).1.reading.Outside :=
  outside_start _ isPlain

/-- Plain characters lead from outside of literals and comments to outside of them. -/
theorem outside_step {s : Lexer} (outside : s.reading.Outside) (isPlain : IsPlain c) :
    (s.step a c).1.reading.Outside := by
  unfold step
  cases reading : s.reading with
  | between => exact outside_start _ isPlain
  | word letters =>
    simp only
    split
    · trivial
    · exact outside_leave _ isPlain
  | number numeral digits =>
    simp only
    split
    · trivial
    · exact outside_leave _ isPlain
  | operator marks =>
    rw [reading] at outside
    have noSlash : marks ≠ ['/'] := outside
    simp only
    unfold stepOperator
    rw [if_neg fun both => noSlash both.1, if_neg fun both => noSlash both.1]
    split
    · trivial
    split
    · trivial
    split
    · -- The last mark is the new one, and that is no slash.
      intro same
      have last := congrArg List.getLast? same
      rw [List.getLast?_append] at last
      exact isPlain.2.2.2 (Option.some.inj last)
    · exact outside_leave _ isPlain
  | quoted | raw | lineComment | blockComment =>
    rw [reading] at outside
    exact outside.elim

/-! ### Literals -/

theorem delimiter_not_isWordPart : a.isWordPart '"' = false := rfl

theorem delimiter_not_next (numeral : Numeral) : numeral.next? '"' = none := by
  cases numeral with
  | whole hex => cases hex <;> decide
  | fraction hex => cases hex <;> decide
  | zero | exponent | power | imaginary => decide

theorem delimiter_not_operator (marks : List Char) :
    String.ofList (marks ++ ['"']) ∉ operators := by
  have none : ∀ operator ∈ operators, '"' ∉ operator.toList := by decide
  intro mem
  refine none _ mem ?_
  rw [String.toList_ofList]
  exact List.mem_append_right _ (List.mem_singleton_self _)

theorem leave_delimiter (s : Lexer) :
    leave a s '"' = (⟨quoted '"' false [], endsBehind s.ends s.reading.tokens⟩,
      s.reading.tokens) := by
  have begins : ∀ ends, start a ends '"' = (⟨quoted '"' false [], ends⟩, []) := fun _ => rfl
  unfold leave
  simp only [begins, List.append_nil]

/-- A delimiter outside of literals ends what is being read and opens a string. -/
theorem step_delimiter {s : Lexer} (outside : s.reading.Outside) :
    s.step a '"' = (⟨quoted '"' false [], endsBehind s.ends s.reading.tokens⟩,
      s.reading.tokens) := by
  unfold step
  cases reading : s.reading with
  | between => rfl
  | word letters =>
    simp only
    rw [delimiter_not_isWordPart, if_neg (by decide), leave_delimiter, reading]
  | number numeral digits =>
    simp only
    rw [delimiter_not_next]
    simp only
    rw [leave_delimiter, reading]
  | operator marks =>
    rw [reading] at outside
    have noSlash : marks ≠ ['/'] := outside
    have noDigit : Text.isDigit '"' = false := by decide
    have stops : ¬ (marks ++ ['"'] = ['.', '.'] ∨ String.ofList (marks ++ ['"']) ∈ operators) := by
      rintro (same | mem)
      · have last := congrArg List.getLast? same
        rw [List.getLast?_append] at last
        exact absurd (Option.some.inj last) (by decide)
      · exact delimiter_not_operator _ mem
    simp only
    unfold stepOperator
    rw [if_neg fun both => noSlash both.1, if_neg fun both => noSlash both.1, noDigit,
      if_neg (by simp), if_neg (by simp), if_neg stops, leave_delimiter]
  | quoted | raw | lineComment | blockComment =>
    rw [reading] at outside
    exact outside.elim

/-- Characters that stand for themselves belong to the string that is being read. -/
theorem run_ordinary (ends : Bool) (inside : List Char) {cs : List Char}
    (ordinary : ∀ c ∈ cs, IsOrdinary c) (rest : List Char) :
    run a ⟨quoted '"' false inside, ends⟩ (cs ++ rest) =
      run a ⟨quoted '"' false (cs.reverse ++ inside), ends⟩ rest := by
  induction cs generalizing inside with
  | nil => rfl
  | cons c cs ih =>
    obtain ⟨noQuote, noEscape, noLine⟩ := ordinary c List.mem_cons_self
    have here : step a ⟨quoted '"' false inside, ends⟩ c =
        (⟨quoted '"' false (c :: inside), ends⟩, []) := by
      show stepQuoted a ends '"' false inside c = _
      unfold stepQuoted
      rw [if_neg noLine, if_neg (by decide), if_neg noQuote, decide_eq_false noEscape]
    rw [List.cons_append, run, here, List.nil_append,
      ih _ fun d mem => ordinary d (List.mem_cons_of_mem _ mem), List.reverse_cons,
      List.append_assoc]
    rfl

/-- An escaped character belongs to the string that is being read. -/
theorem run_escape (ends : Bool) (inside : List Char) (c : Char) (rest : List Char) :
    run a ⟨quoted '"' false inside, ends⟩ (escape c ++ rest) =
      run a ⟨quoted '"' false ((escape c).reverse ++ inside), ends⟩ rest := by
  rcases escape_shape c with ⟨d, more, shape, other, ordinary⟩ | ⟨shape, ordinary⟩
  · have opening : step a ⟨quoted '"' false inside, ends⟩ '\\' =
        (⟨quoted '"' true ('\\' :: inside), ends⟩, []) := rfl
    have behind : step a ⟨quoted '"' true ('\\' :: inside), ends⟩ d =
        (⟨quoted '"' false (d :: '\\' :: inside), ends⟩, []) := by
      show stepQuoted a ends '"' true ('\\' :: inside) d = _
      unfold stepQuoted
      rw [if_neg other, if_pos rfl]
    rw [shape, List.cons_append, List.cons_append, run, opening, List.nil_append, run, behind,
      List.nil_append, run_ordinary ends _ ordinary, List.reverse_cons, List.reverse_cons,
      List.append_assoc, List.append_assoc]
    rfl
  · rw [shape]
    exact run_ordinary ends inside (fun d mem => List.mem_singleton.mp mem ▸ ordinary) rest

theorem run_escapes (ends : Bool) (inside text rest : List Char) :
    run a ⟨quoted '"' false inside, ends⟩ (text.flatMap escape ++ rest) =
      run a ⟨quoted '"' false ((text.flatMap escape).reverse ++ inside), ends⟩ rest := by
  induction text generalizing inside with
  | nil => rfl
  | cons c cs ih =>
    rw [List.flatMap_cons, List.append_assoc, run_escape, ih, List.reverse_append,
      List.append_assoc]

/-- A literal outside of literals and comments is one token behind what is being read, and
leads to a gap where the end of the line ends a statement. -/
theorem run_quoteChars {s : Lexer} (outside : s.reading.Outside) (text rest : List Char) :
    run a s (quoteChars text ++ rest) = s.reading.tokens ++
      .literal '"' (String.ofList (text.flatMap escape)) true :: run a ⟨between, true⟩ rest := by
  have closing : ∀ ends inside, step a ⟨quoted '"' false inside, ends⟩ '"' =
      (⟨between, true⟩, [.literal '"' (String.ofList inside.reverse) true]) := fun _ _ => rfl
  unfold quoteChars
  rw [List.cons_append, run, step_delimiter outside, List.append_assoc, run_escapes,
    List.append_nil, List.singleton_append, run, closing, List.reverse_reverse]
  rfl

/-! ### Twins -/

/-- Read from outside of literals and comments, twins have the same tokens but for what their
strings say. -/
theorem run_twins {s : Lexer} {cs ds : List Char} (twins : TwinChars cs ds)
    (outside : s.reading.Outside) :
    (run a s cs).map Token.withoutValue = (run a s ds).map Token.withoutValue := by
  induction twins generalizing s with
  | nil => rfl
  | plain isPlain _ ih =>
    rw [run, run, List.map_append, List.map_append, ih (outside_step outside isPlain)]
  | literal text other _ ih =>
    have behind : (⟨between, true⟩ : Lexer).reading.Outside := trivial
    rw [run_quoteChars outside, run_quoteChars outside, List.map_append, List.map_append,
      List.map_cons, List.map_cons, ih behind]
    rfl

end Lexer

/-- Twins have the same tokens but for what their strings say. -/
theorem Twins.tokens_eq {code code' : String} (twins : Twins code code') (a : Alphabet) :
    (tokens a code).map Token.withoutValue = (tokens a code').map Token.withoutValue :=
  Lexer.run_twins twins trivial

end Blockwork.Source
