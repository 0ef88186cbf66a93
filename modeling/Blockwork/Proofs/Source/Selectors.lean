import Mathlib.Data.List.Induction
import Blockwork.Proofs.Source.Passing
import Blockwork.Proofs.Source.Tokens

/-!
# Selectors among the tokens

The scanner against the lexical rules of the language: which names with a dot and another name
right behind them it finds.

* **side by side** — `Matches`: what the scanner's mode can be while the machine of the language
  reads; `Matches.step` and `Matches.run` carry it along any text without lexical errors;
* **names** — `Lexer.word_of_after`: where a word that is a token of its own starts;
* **selectors** — `Selects.tokens_eq`: a word that selects, its dot and its member among the
  tokens; `selectors_found`: what the scanner finds.
-/

namespace Blockwork.Source

variable {a : Alphabet} {c : Char} {cs ds : List Char} {mode : Mode}

/-- The letters and digits of the language are letters and numbers of Unicode. -/
def Alphabet.IsWithin (a : Alphabet) : Prop :=
  ∀ c, 0x80 ≤ c.toNat →
    (a.letter c = true → Text.isLetter c = true) ∧ (a.digit c = true → Text.isNumber c = true)

namespace Alphabet.IsWithin

theorem isWordStart (within : a.IsWithin) (letter : a.isLetter c = true) :
    Text.isWordStart c = true := by
  unfold Alphabet.isLetter at letter
  unfold Text.isWordStart
  split at letter
  · rename_i small
    unfold Text.isLetter
    rw [if_pos small]
    have classes : c.isAlpha = (decide ('A' ≤ c ∧ c ≤ 'Z') || ('a' ≤ c && c ≤ 'z')) := rfl
    simp only [classes, Bool.or_eq_true, Bool.and_eq_true, decide_eq_true_eq] at letter ⊢
    rcases letter with (upper | lower) | underscore
    · exact .inl (.inr upper)
    · exact .inl (.inl lower)
    · exact .inr underscore
  · rename_i large
    rw [(within c (by omega)).1 letter]
    rfl

theorem isWordPart (within : a.IsWithin) (part : a.isWordPart c = true) :
    Text.isWordPart c = true := by
  unfold Alphabet.isWordPart at part
  rw [Bool.or_eq_true] at part
  rcases part with letter | digit
  · exact Text.isWordPart_of_isWordStart (within.isWordStart letter)
  · split at digit
    · exact Text.isWordPart_of_isDigit digit
    · rename_i large
      simp [Text.isWordPart, Text.isLetterOrNumber, (within c (by omega)).2 digit]

end Alphabet.IsWithin

/-! ### The scanner in code -/

namespace Mode

/-- Inside a name or a number. -/
def IsWord : Mode → Prop
  | name .. | number _ => True
  | _ => False

/-- Outside of literals and comments. -/
def IsCode : Mode → Prop
  | gap | slash | dot _ | name .. | number _ => True
  | quoted _ | escaped _ | raw | lineComment | blockComment _ => False

/-- Behind a dot, be it a token of its own or part of a number. -/
def IsDotted : Mode → Prop
  | dot _ => True
  | number dotted => dotted = true
  | _ => False

theorem IsWord.isCode (word : mode.IsWord) : mode.IsCode := by
  cases mode <;> trivial

theorem IsDotted.isCode (dotted : mode.IsDotted) : mode.IsCode := by
  cases mode <;> trivial

theorem IsWord.ne_slash (word : mode.IsWord) : mode ≠ slash := by
  rintro rfl
  exact word

theorem IsDotted.ne_slash (dotted : mode.IsDotted) : mode ≠ slash := by
  rintro rfl
  exact dotted

/-- A letter or a digit in code leads into a name or a number. -/
theorem IsCode.step_word (code : mode.IsCode)
    (word : Text.isWordStart c = true ∨ Text.isDigit c = true) : (mode.step c).1.IsWord := by
  have part : Text.isWordPart c = true :=
    word.elim Text.isWordPart_of_isWordStart Text.isWordPart_of_isDigit
  have begins : ∀ dotted, (start dotted c).IsWord := by
    intro dotted
    rcases word with letter | digit
    · rw [start_of_isWordStart dotted letter]
      trivial
    · rw [start_of_isDigit dotted digit]
      trivial
  cases mode with
  | gap => exact begins false
  | slash =>
    unfold step
    simp only
    rw [if_neg (Text.ne_of_class part (by decide)), if_neg (Text.ne_of_class part (by decide))]
    exact begins false
  | dot base => exact begins true
  | name letters base =>
    rw [step_name letters base part]
    trivial
  | number dotted =>
    unfold step
    simp only
    repeat' split
    all_goals first | exact begins _ | trivial
  | quoted | escaped | raw | lineComment | blockComment => exact code.elim

theorem IsCode.step_dot (code : mode.IsCode) : (mode.step '.').1.IsDotted := by
  have begins : ∀ dotted, (start dotted '.').IsDotted := fun dotted => by cases dotted <;> trivial
  cases mode with
  | gap => exact begins false
  | slash => exact begins false
  | dot base => exact begins true
  | name letters base => trivial
  | number dotted => rfl
  | quoted | escaped | raw | lineComment | blockComment => exact code.elim

/-- Any other character in code starts something new, unless it opens a comment. -/
theorem IsCode.step_mark (code : mode.IsCode) (noWord : Text.isWordPart c = false)
    (noDot : c ≠ '.') (noComment : mode = slash → c ≠ '/' ∧ c ≠ '*') :
    (mode.step c).1 = start false c := by
  have noNumber : Text.isLetterOrNumber c = false := (Bool.or_eq_false_iff.mp noWord).1
  have noStart : Text.isWordStart c = false := by
    cases letter : Text.isWordStart c with
    | false => rfl
    | true => exact nomatch (Text.isWordPart_of_isWordStart letter).symm.trans noWord
  have alike : ∀ dotted, start dotted c = start false c := by
    intro dotted
    unfold start
    rw [if_neg (c := Text.isWordStart c = true) (by simp [noStart]),
      if_neg (c := Text.isWordStart c = true) (by simp [noStart])]
  cases mode with
  | gap => rfl
  | slash =>
    obtain ⟨noLine, noBlock⟩ := noComment rfl
    unfold step
    simp only
    rw [if_neg noLine, if_neg noBlock]
  | dot base => exact alike true
  | name letters base => simp [step, noWord, noDot]
  | number dotted =>
    simp only [step, noNumber, noDot]
    exact alike dotted
  | quoted | escaped | raw | lineComment | blockComment => exact code.elim

/-- The parts of words go on with a name or a number. -/
theorem IsWord.step_part (word : mode.IsWord) (part : Text.isWordPart c = true) :
    (mode.step c).1.IsWord := by
  cases mode with
  | name letters base =>
    rw [step_name letters base part]
    trivial
  | number dotted =>
    unfold step
    simp only
    split
    · trivial
    · rename_i noNumber
      have underscore : c = '_' := by
        rw [Text.isWordPart, Bool.or_eq_true, beq_iff_eq] at part
        exact part.resolve_left noNumber
      subst underscore
      cases dotted <;> trivial
  | gap | slash | dot | quoted | escaped | raw | lineComment | blockComment => exact word.elim

end Mode

/-! ### Numbers -/

namespace Numeral

/-- A letter of ASCII is a letter of words. -/
theorem isWordStart_of_le {first last : Char} (low : first ≤ c) (high : c ≤ last)
    (inside : ('a' ≤ first ∧ last ≤ 'z') ∨ ('A' ≤ first ∧ last ≤ 'Z')) :
    Text.isWordStart c = true := by
  have small : c.toNat < 0x80 := by
    have end' : 'z'.val.toNat = 0x7A := rfl
    have end'' : 'Z'.val.toNat = 0x5A := rfl
    show c.val.toNat < 0x80
    simp only [Char.le_def, UInt32.le_iff_toNat_le] at low high inside
    omega
  rw [Text.isWordStart, Text.isLetter, if_pos small]
  rcases inside with ⟨above, below⟩ | ⟨above, below⟩
  · simp [Char.le_trans above low, Char.le_trans high below]
  · simp [Char.le_trans above low, Char.le_trans high below]

theorem word_of_isPlace {hex : Bool} (place : isPlace hex c = true) :
    Text.isWordStart c = true ∨ Text.isDigit c = true := by
  rw [isPlace, Bool.or_eq_true, beq_iff_eq] at place
  rcases place with rfl | digit
  · exact .inl (by decide)
  cases hex with
  | false => exact .inr digit
  | true =>
    rw [if_pos rfl, Text.hexValue?] at digit
    split at digit
    · rename_i decimal
      exact .inr (by simp [Text.isDigit, decimal])
    split at digit
    · rename_i lower
      exact .inl (isWordStart_of_le lower.1 lower.2 (.inl (by decide)))
    split at digit
    · rename_i upper
      exact .inl (isWordStart_of_le upper.1 upper.2 (.inr (by decide)))
    · exact absurd digit (by decide)

theorem mark_of_behind? {same next : Numeral} {hex : Bool}
    (goes : next?.behind? same hex c = some next) :
    (Text.isWordStart c = true ∨ Text.isDigit c = true) ∨ c = '.' ∨ c = '+' ∨ c = '-' := by
  unfold next?.behind? at goes
  split at goes
  · rename_i place
    exact .inl (word_of_isPlace place)
  split at goes
  · rename_i point
    exact .inr (.inl point)
  split at goes
  · rename_i letter
    rcases letter with rfl | rfl | rfl | rfl <;> exact .inl (.inl (by decide))
  split at goes
  · rename_i letter
    subst letter
    exact .inl (.inl (by decide))
  · exact nomatch goes

/-- What a number can go on with. -/
theorem mark_of_next? {numeral next : Numeral} (goes : numeral.next? c = some next) :
    (Text.isWordStart c = true ∨ Text.isDigit c = true) ∨ c = '.' ∨ c = '+' ∨ c = '-' := by
  unfold next? at goes
  cases numeral with
  | zero =>
    simp only at goes
    split at goes
    · rename_i letter
      rcases letter with rfl | rfl <;> exact .inl (.inl (by decide))
    split at goes
    · rename_i letter
      rcases letter with rfl | rfl | rfl | rfl <;> exact .inl (.inl (by decide))
    · exact mark_of_behind? goes
  | whole hex => exact mark_of_behind? goes
  | fraction hex =>
    simp only at goes
    split at goes
    · exact nomatch goes
    · exact mark_of_behind? goes
  | exponent =>
    simp only at goes
    split at goes
    · rename_i mark
      rcases mark with plus | minus | place
      · exact .inr (.inr (.inl plus))
      · exact .inr (.inr (.inr minus))
      · exact .inl (word_of_isPlace place)
    split at goes
    · rename_i letter
      subst letter
      exact .inl (.inl (by decide))
    · exact nomatch goes
  | power =>
    simp only at goes
    split at goes
    · rename_i place
      exact .inl (word_of_isPlace place)
    split at goes
    · rename_i letter
      subst letter
      exact .inl (.inl (by decide))
    · exact nomatch goes
  | imaginary => exact nomatch goes

end Numeral

/-! ### The machine behind a text -/

namespace Lexer

/-- The machine behind a text. -/
def after (a : Alphabet) (s : Lexer) (cs : List Char) : Lexer :=
  cs.foldl (fun s c => (s.step a c).1) s

/-- The tokens that are complete behind a text. -/
def given (a : Alphabet) : Lexer → List Char → List Token
  | _, [] => []
  | s, c :: rest => (s.step a c).2 ++ given a (s.step a c).1 rest

variable {s : Lexer}

theorem after_append (s : Lexer) (cs ds : List Char) :
    after a s (cs ++ ds) = after a (after a s cs) ds :=
  List.foldl_append

theorem run_append (s : Lexer) (cs ds : List Char) :
    run a s (cs ++ ds) = given a s cs ++ run a (after a s cs) ds := by
  induction cs generalizing s with
  | nil => rfl
  | cons c cs ih =>
    rw [List.cons_append, run, ih, given, List.append_assoc]
    rfl

end Lexer

/-- Whether the token is one of the language: no stray character, and no literal that its line
or the text leaves open. -/
def Token.IsLegal : Token → Prop
  | illegal _ => False
  | literal _ _ closed => closed = true
  | _ => True

/-- The text is made of tokens of the language. -/
def IsLexical (a : Alphabet) (source : String) : Prop :=
  ∀ token ∈ tokens a source, token.IsLegal

/-! ### Side by side -/

/-- What the scanner's mode can be while the machine reads. A name that a number runs into is
part of the number for the scanner, and the underscore of a number starts a name. -/
inductive Matches : Reading → Mode → Prop where
  | between : Matches .between .gap
  | word {letters} {m : Mode} (present : letters ≠ []) (word : m.IsWord) :
    Matches (.word letters) m
  | number {numeral digits} {m : Mode} (code : m.IsCode) (noSlash : m ≠ .slash) :
    Matches (.number numeral digits) m
  | slash : Matches (.operator ['/']) .slash
  | dotted {marks} {m : Mode} (last : marks.getLast? = some '.') (dotted : m.IsDotted) :
    Matches (.operator marks) m
  | operator {marks} (noSlash : marks ≠ ['/']) (noDot : marks.getLast? ≠ some '.') :
    Matches (.operator marks) .gap
  | quoted {delimiter inside} : Matches (.quoted delimiter false inside) (.quoted delimiter)
  | escaped {delimiter inside} : Matches (.quoted delimiter true inside) (.escaped delimiter)
  | raw {inside} : Matches (.raw inside) .raw
  | lineComment : Matches .lineComment .lineComment
  | blockComment {star broke} : Matches (.blockComment star broke) (.blockComment star)

namespace Matches

/-- The characters of operators but the dot and the slash lead the scanner into a gap. -/
theorem operator_marks : ∀ operator ∈ operators, ∀ c ∈ operator.toList,
    Text.isWordPart c = false ∧ (c = '.' ∨ c = '/' ∨ Mode.start false c = .gap) := by
  have all : (operators.all fun operator => operator.toList.all fun c => decide
      (Text.isWordPart c = false ∧ (c = '.' ∨ c = '/' ∨ Mode.start false c = .gap))) = true := by
    decide +kernel
  intro operator listed
  exact Text.forall_mem_of_all (List.all_eq_true.mp all operator listed)

theorem operator_slash :
    ∀ operator ∈ operators, operator.toList.getLast? = some '/' → operator = "/" := by
  decide +kernel

/-- A character that makes an operator, or a longer one, or the second of three dots. -/
theorem grow {marks : List Char} (code : mode.IsCode)
    (noComment : mode = .slash → c ≠ '/' ∧ c ≠ '*')
    (longer : marks ++ [c] = ['.', '.'] ∨ String.ofList (marks ++ [c]) ∈ operators) :
    Matches (.operator (marks ++ [c])) (mode.step c).1 := by
  have last : (marks ++ [c]).getLast? = some c := List.getLast?_concat
  by_cases dot : c = '.'
  · subst dot
    exact .dotted last code.step_dot
  have listed : String.ofList (marks ++ [c]) ∈ operators := by
    rcases longer with dots | listed
    · rw [dots] at last
      exact absurd (Option.some.inj last).symm dot
    · exact listed
  have mem : c ∈ (String.ofList (marks ++ [c])).toList := by simp
  obtain ⟨noWord, kind⟩ := operator_marks _ listed c mem
  rw [code.step_mark noWord dot noComment]
  by_cases slash : c = '/'
  · -- A slash goes on with no operator, so it stands alone.
    subst slash
    have alone := operator_slash _ listed (by rw [String.toList_ofList]; exact last)
    have only : marks ++ ['/'] = ['/'] := by
      rw [← String.toList_ofList (l := marks ++ ['/']), alone]
      rfl
    rw [only]
    exact .slash
  · rcases kind with same | same | gap
    · exact absurd same dot
    · exact absurd same slash
    · rw [gap]
      refine .operator (fun same => slash ?_) fun same => dot ?_
      · rw [same] at last
        exact (Option.some.inj last).symm
      · exact Option.some.inj (last.symm.trans same)

/-- A character that is left to start something new starts the same for the scanner. -/
theorem leave (within : a.IsWithin) {ends : Bool} (code : mode.IsCode)
    (noComment : mode = .slash → c ≠ '/' ∧ c ≠ '*')
    (legal : ∀ token ∈ (Lexer.start a ends c).2, token.IsLegal) :
    Matches (Lexer.start a ends c).1.reading (mode.step c).1 := by
  have mark : Text.isWordPart c = false → c ≠ '.' → (mode.step c).1 = Mode.start false c :=
    fun noWord noDot => code.step_mark noWord noDot noComment
  unfold Lexer.start at legal ⊢
  split
  · rename_i newline
    subst newline
    rw [mark (by decide) (by decide)]
    exact .between
  split
  · rename_i blank
    have gap : (mode.step c).1 = .gap := by
      rcases blank with rfl | rfl | rfl <;> exact mark (by decide) (by decide)
    rw [gap]
    exact .between
  split
  · rename_i letter
    exact .word (List.cons_ne_nil _ _) (code.step_word (.inl (within.isWordStart letter)))
  split
  · rename_i digit
    have word := code.step_word (.inr digit)
    exact .number word.isCode word.ne_slash
  split
  · rename_i quote
    have opens : (mode.step c).1 = .quoted c := by
      rcases quote with rfl | rfl <;> exact mark (by decide) (by decide)
    rw [opens]
    exact .quoted
  split
  · rename_i raw
    subst raw
    rw [mark (by decide) (by decide)]
    exact .raw
  split
  · rename_i listed
    rw [String.singleton_eq_ofList] at listed
    have single : [] ++ [c] = ['.', '.'] ∨ String.ofList ([] ++ [c]) ∈ operators := .inr listed
    have grown := grow code noComment single
    exact grown
  · rename_i h1 h2 h3 h4 h5 h6 h7
    rw [if_neg h1, if_neg h2, if_neg h3, if_neg h4, if_neg h5, if_neg h6, if_neg h7] at legal
    exact (legal _ (List.mem_singleton_self _)).elim

/-- What goes on with a number leads the scanner to a name, a number, a dot or a gap. -/
theorem goOn (code : mode.IsCode) {numeral next : Numeral} (goes : numeral.next? c = some next) :
    (mode.step c).1.IsCode ∧ (mode.step c).1 ≠ .slash := by
  rcases Numeral.mark_of_next? goes with word | rfl | sign
  · have word := code.step_word word
    exact ⟨word.isCode, word.ne_slash⟩
  · have dotted := code.step_dot
    exact ⟨dotted.isCode, dotted.ne_slash⟩
  · have gap : (mode.step c).1 = .gap := by
      rcases sign with rfl | rfl <;>
        exact code.step_mark (by decide) (by decide) fun _ => ⟨by decide, by decide⟩
    rw [gap]
    exact ⟨trivial, nofun⟩

/-- Behind the marks of an operator, where no comment is opened. -/
theorem operate (within : a.IsWithin) {ends : Bool} {marks : List Char} (code : mode.IsCode)
    (noComment : mode = .slash → c ≠ '/' ∧ c ≠ '*')
    (noLine : ¬ (marks = ['/'] ∧ c = '/')) (noBlock : ¬ (marks = ['/'] ∧ c = '*'))
    (legal : ∀ token ∈ (Lexer.stepOperator a ends marks c).2, token.IsLegal) :
    Matches (Lexer.stepOperator a ends marks c).1.reading (mode.step c).1 := by
  have number : ∀ digits, Text.isDigit c = true →
      Matches (.number (.fraction false) digits) (mode.step c).1 := by
    intro digits digit
    have word := code.step_word (.inr digit)
    exact .number word.isCode word.ne_slash
  unfold Lexer.stepOperator at legal ⊢
  rw [if_neg noLine, if_neg noBlock] at legal ⊢
  split
  · rename_i fraction
    exact number _ fraction.2
  rename_i noFraction
  rw [if_neg noFraction] at legal
  split
  · rename_i fraction
    exact number _ fraction.2
  rename_i noSecond
  rw [if_neg noSecond] at legal
  split
  · rename_i longer
    exact grow code noComment longer
  · rename_i shorter
    rw [if_neg shorter] at legal
    exact leave within code noComment fun token mem => legal token (List.mem_append_right _ mem)

/-- One character leads on side by side. -/
theorem step (within : a.IsWithin) {s : Lexer} (side : Matches s.reading mode)
    (legal : ∀ token ∈ (s.step a c).2, token.IsLegal) :
    Matches (s.step a c).1.reading (mode.step c).1 := by
  obtain ⟨reading, ends⟩ := s
  simp only at side
  have leaves : mode.IsCode → (mode = .slash → c ≠ '/' ∧ c ≠ '*') →
      (∀ token ∈ (Lexer.leave a ⟨reading, ends⟩ c).2, token.IsLegal) →
      Matches (Lexer.leave a ⟨reading, ends⟩ c).1.reading (mode.step c).1 :=
    fun code noComment legal =>
      leave within code noComment fun token mem => legal token (List.mem_append_right _ mem)
  -- A line that ends inside a literal leaves it open.
  have opened : ∀ {delimiter escaped inside},
      ¬ ∀ token ∈ (Lexer.leave a ⟨.quoted delimiter escaped inside, ends⟩ c).2, token.IsLegal :=
    fun legal => nomatch legal _ (List.mem_append_left _ (List.mem_singleton_self _))
  unfold Lexer.step at legal ⊢
  cases side with
  | between => exact leave within trivial nofun legal
  | word present word =>
    simp only at legal ⊢
    split
    · rename_i part
      exact .word (List.cons_ne_nil _ _) (word.step_part (within.isWordPart part))
    · rename_i other
      rw [if_neg other] at legal
      exact leaves word.isCode (fun same => absurd same word.ne_slash) legal
  | @number numeral digits mode code noSlash =>
    simp only at legal ⊢
    cases goes : numeral.next? c with
    | some next =>
      obtain ⟨code, noSlash⟩ := goOn code goes
      exact .number code noSlash
    | none =>
      rw [goes] at legal
      exact leaves code (fun same => absurd same noSlash) legal
  | slash =>
    by_cases line : c = '/'
    · subst line
      exact .lineComment
    by_cases block : c = '*'
    · subst block
      exact .blockComment
    exact operate within trivial (fun _ => ⟨line, block⟩) (fun both => line both.2)
      (fun both => block both.2) legal
  | @dotted marks mode last dotted =>
    have noSlash : marks ≠ ['/'] := by
      rintro rfl
      exact absurd last (by decide)
    exact operate within dotted.isCode (fun same => absurd same dotted.ne_slash)
      (fun both => noSlash both.1) (fun both => noSlash both.1) legal
  | operator noSlash noDot =>
    exact operate within trivial nofun (fun both => noSlash both.1) (fun both => noSlash both.1)
      legal
  | @quoted delimiter inside =>
    simp only [Lexer.stepQuoted] at legal ⊢
    split
    · rename_i newline
      rw [if_pos newline] at legal
      exact (opened legal).elim
    rename_i noLine
    rw [if_neg (by decide)]
    split
    · rename_i closing
      simp only [Mode.step, closing, true_or, if_true]
      exact .between
    · rename_i other
      by_cases escape : c = '\\'
      · subst escape
        have opens : (Mode.quoted delimiter).step '\\' = (.escaped delimiter, none) := by
          show (if '\\' = delimiter ∨ '\\' = '\n' then (Mode.gap, none)
            else if '\\' = '\\' then (.escaped delimiter, none)
            else (.quoted delimiter, none)) = _
          rw [if_neg (by rintro (same | same) <;> contradiction), if_pos rfl]
        rw [opens]
        exact .escaped
      · rw [Mode.step_quoted delimiter other noLine escape, decide_eq_false escape]
        exact .quoted
  | @escaped delimiter inside =>
    simp only [Lexer.stepQuoted] at legal ⊢
    split
    · rename_i newline
      rw [if_pos newline] at legal
      exact (opened legal).elim
    · exact .quoted
  | raw =>
    simp only [Mode.step]
    split
    · exact .between
    · exact .raw
  | lineComment =>
    simp only [Mode.step]
    split
    · rename_i newline
      subst newline
      exact .between
    · exact .lineComment
  | @blockComment star broke =>
    by_cases closes : star = true ∧ c = '/'
    · simp only [Mode.step, closes, and_self, if_true, decide_true, Bool.and_true]
      exact .between
    · simp only [Mode.step, if_neg closes]
      rw [if_neg (by simpa using closes)]
      exact .blockComment

/-- A text without lexical errors leads on side by side. -/
theorem run (within : a.IsWithin) {s : Lexer} (side : Matches s.reading mode)
    (legal : ∀ token ∈ Lexer.given a s cs, token.IsLegal) :
    Matches (Lexer.after a s cs).reading (mode.run cs) := by
  induction cs generalizing s mode with
  | nil => exact side
  | cons c cs ih =>
    rw [Lexer.given, List.forall_mem_append] at legal
    exact ih (side.step within legal.1) legal.2

end Matches

/-! ### Names -/

namespace Lexer

variable {s : Lexer} {letters word front : List Char} {source : String}

theorem word_of_start {ends : Bool} (reads : (start a ends c).1.reading = .word letters) :
    letters = [c] ∧ a.isLetter c = true := by
  unfold start at reads
  split at reads
  · exact nomatch reads
  split at reads
  · exact nomatch reads
  split at reads
  · rename_i letter
    exact ⟨(Reading.word.inj reads).symm, letter⟩
  -- What starts with any other character is no name.
  repeat' split at reads
  all_goals exact nomatch reads

theorem start_letter (within : a.IsWithin) (letter : a.isLetter c = true) (ends : Bool) :
    start a ends c = (⟨.word [c], ends⟩, []) := by
  have word := within.isWordStart letter
  unfold start
  rw [if_neg (Text.ne_of_class word (by decide)), if_neg, if_pos letter]
  rintro (same | same | same) <;> exact Text.ne_of_class word (by decide) same

theorem step_word_dot (letters : List Char) (ends : Bool) :
    step a ⟨.word letters, ends⟩ '.' =
      (⟨.operator ['.'], endsBehind ends [.word (String.ofList letters.reverse)]⟩,
        [.word (String.ofList letters.reverse)]) :=
  rfl

theorem step_dot_letter (within : a.IsWithin) (letter : a.isLetter c = true) (ends : Bool) :
    step a ⟨.operator ['.'], ends⟩ c = (⟨.word [c], false⟩, [.operator "."]) := by
  have word := within.isWordStart letter
  have noDigit : Text.isDigit c = false := Text.not_isDigit_of_isWordStart word
  have noOperator : ¬ (['.'] ++ [c] = ['.', '.'] ∨ String.ofList (['.'] ++ [c]) ∈ operators) := by
    rintro (same | listed)
    · exact Text.ne_of_class word (by decide) (List.cons.inj (List.cons.inj same).2).1
    · have noPart := (Matches.operator_marks _ listed c (by simp)).1
      exact nomatch (Text.isWordPart_of_isWordStart word).symm.trans noPart
  show stepOperator a ends ['.'] c = _
  unfold stepOperator
  rw [if_neg (by simp), if_neg (by simp), noDigit, if_neg (by simp), if_neg (by simp),
    if_neg noOperator]
  simp only [leave, start_letter within letter]
  rfl

/-- A word that is being read is the next token. -/
theorem run_word (letters : List Char) (ends : Bool) (cs : List Char) :
    ∃ more others, run a ⟨.word letters, ends⟩ cs =
      .word (String.ofList (letters.reverse ++ more)) :: others := by
  induction cs generalizing letters with
  | nil =>
    refine ⟨[], lineEnd (endsBehind ends [.word (String.ofList letters.reverse)]), ?_⟩
    rw [List.append_nil]
    rfl
  | cons c rest ih =>
    rw [run]
    by_cases part : a.isWordPart c = true
    · have goesOn : step a ⟨.word letters, ends⟩ c = (⟨.word (c :: letters), ends⟩, []) :=
        if_pos part
      obtain ⟨more, others, read⟩ := ih (c :: letters)
      refine ⟨c :: more, others, ?_⟩
      rw [goesOn, List.nil_append, read, List.reverse_cons, List.append_assoc]
      rfl
    · have leaves : step a ⟨.word letters, ends⟩ c = leave a ⟨.word letters, ends⟩ c :=
        if_neg part
      obtain ⟨begun, given⟩ : ∃ begun, (leave a ⟨.word letters, ends⟩ c).2 =
          .word (String.ofList letters.reverse) :: begun := ⟨_, rfl⟩
      refine ⟨[], begun ++ run a (leave a ⟨.word letters, ends⟩ c).1 rest, ?_⟩
      rw [leaves, given, List.append_nil, List.cons_append]

/-- A name that is being read either goes on with its last character or has just started. -/
theorem word_of_step (reads : (s.step a c).1.reading = .word letters) :
    (∃ before, s.reading = .word before ∧ letters = c :: before ∧ a.isWordPart c = true) ∨
      (letters = [c] ∧ a.isLetter c = true ∧ (s.reading = .between ∨
        (∃ numeral digits, s.reading = .number numeral digits) ∨
          ∃ marks, s.reading = .operator marks)) := by
  have noLetter : a.isLetter '\n' = false := rfl
  obtain ⟨reading, ends⟩ := s
  unfold step at reads
  cases reading with
  | between =>
    obtain ⟨alone, letter⟩ := word_of_start reads
    exact .inr ⟨alone, letter, .inl rfl⟩
  | word before =>
    simp only at reads
    split at reads
    · rename_i part
      exact .inl ⟨before, rfl, (Reading.word.inj reads).symm, part⟩
    · rename_i other
      obtain ⟨-, letter⟩ := word_of_start reads
      exact absurd (by rw [Alphabet.isWordPart, letter]; rfl) other
  | number numeral digits =>
    simp only at reads
    split at reads
    · exact nomatch reads
    · obtain ⟨alone, letter⟩ := word_of_start reads
      exact .inr ⟨alone, letter, .inr (.inl ⟨_, _, rfl⟩)⟩
  | operator marks =>
    simp only [stepOperator] at reads
    -- A comment, a number or a longer operator is no name.
    iterate 5
      split at reads
      · exact nomatch reads
    obtain ⟨alone, letter⟩ := word_of_start reads
    exact .inr ⟨alone, letter, .inr (.inr ⟨_, rfl⟩)⟩
  | quoted delimiter escaped inside =>
    simp only [stepQuoted] at reads
    split at reads
    · rename_i newline
      obtain ⟨-, letter⟩ := word_of_start reads
      rw [newline, noLetter] at letter
      exact nomatch letter
    repeat' split at reads
    all_goals exact nomatch reads
  | raw inside =>
    simp only at reads
    split at reads <;> exact nomatch reads
  | lineComment =>
    simp only at reads
    split at reads
    · rename_i newline
      obtain ⟨-, letter⟩ := word_of_start reads
      rw [newline, noLetter] at letter
      exact nomatch letter
    · exact nomatch reads
  | blockComment star broke =>
    simp only at reads
    split at reads <;> exact nomatch reads

/-- A name that is a token of its own starts with a letter, outside of literals and comments, and
goes on with parts of words. -/
theorem word_of_after (fresh : s.reading ≠ .word [])
    (reads : (after a s word).reading = .word word.reverse) :
    ∃ c rest, word = c :: rest ∧ a.isLetter c = true ∧ (∀ d ∈ rest, a.isWordPart d = true) ∧
      (s.reading = .between ∨ (∃ numeral digits, s.reading = .number numeral digits) ∨
        ∃ marks, s.reading = .operator marks) := by
  induction word using List.reverseRecOn with
  | nil => exact absurd reads fresh
  | append_singleton front last ih =>
    rw [after_append, List.reverse_append] at reads
    rcases word_of_step reads with ⟨before, inside, same, part⟩ | ⟨alone, letter, started⟩
    · obtain rfl := (List.cons.inj same).2
      obtain ⟨c, rest, rfl, letter, parts, started⟩ := ih inside
      refine ⟨c, rest ++ [last], rfl, letter, fun d mem => ?_, started⟩
      rcases List.mem_append.mp mem with mem | mem
      · exact parts d mem
      · rw [List.mem_singleton.mp mem]
        exact part
    · have nothing : front = [] := List.reverse_eq_nil_iff.mp (List.cons.inj alone).2
      subst nothing
      exact ⟨last, [], rfl, letter, nofun, started⟩

end Lexer

/-- Whether a name right behind what is being read runs into it for the scanner: behind a dot it
is taken for a member, and behind a number for its end. -/
def Reading.joins : Reading → Bool
  | .number .. => true
  | .operator marks => marks.getLast? == some '.'
  | _ => false

/-- Behind `front` stands a word that is a token of its own, with a dot and another name right
behind it. -/
structure Selects (a : Alphabet) (source : String) (front word : List Char) : Prop where
  reads : (Lexer.after a {} (front ++ word)).reading = .word word.reverse
  written : ∃ member rest, a.isLetter member = true ∧
    source.toList = front ++ word ++ '.' :: member :: rest

variable {front word : List Char} {source : String}

/-- The word, the dot and the other name are tokens one behind the other. -/
theorem Selects.tokens_eq (within : a.IsWithin) (selects : Selects a source front word) :
    ∃ member others, tokens a source = Lexer.given a {} (front ++ word) ++
      .word (String.ofList word) :: .operator "." :: .word member :: others := by
  obtain ⟨reads, member, rest, letter, written⟩ := selects
  obtain ⟨more, others, read⟩ := Lexer.run_word (a := a) [member] false rest
  refine ⟨String.ofList (member :: more), others, ?_⟩
  rw [tokens, written, Lexer.run_append]
  congr 1
  generalize Lexer.after a {} (front ++ word) = behind at reads ⊢
  obtain ⟨reading, ends⟩ := behind
  obtain rfl : reading = .word word.reverse := reads
  rw [Lexer.run, Lexer.step_word_dot, Lexer.run, Lexer.step_dot_letter within letter, read,
    List.reverse_reverse]
  rfl

/-- Behind what a name does not run into, a name can be a qualifier. -/
theorem Matches.step_name {reading : Reading} (side : Matches reading mode)
    (apart : reading.joins = false)
    (started : reading = .between ∨ (∃ numeral digits, reading = .number numeral digits) ∨
      ∃ marks, reading = .operator marks)
    (start : Text.isWordStart c = true) : mode.step c = (.name [c] true, none) := by
  have fresh : (Mode.start false c, none) = (Mode.name [c] true, (none : Option (List Char))) :=
    congrArg (·, none) (Mode.start_of_isWordStart false start)
  cases side with
  | between => exact fresh
  | operator => exact fresh
  | slash =>
    show (if c = '/' then (Mode.lineComment, none)
      else if c = '*' then (.blockComment false, none) else (.start false c, none)) = _
    rw [if_neg (Text.ne_of_class start (by decide)), if_neg (Text.ne_of_class start (by decide))]
    exact fresh
  | dotted last =>
    rw [Reading.joins, last] at apart
    exact nomatch apart
  | number => exact nomatch apart
  | word | quoted | escaped | raw | lineComment | blockComment =>
    rcases started with same | ⟨_, _, same⟩ | ⟨_, same⟩ <;> exact nomatch same

/-- **Selectors.** In a text without lexical errors the scanner finds every word that is a token
of its own with a dot and another name right behind it, unless a dot or a number stands right in
front of it. -/
theorem selectors_found (within : a.IsWithin) (lexical : IsLexical a source)
    (selects : Selects a source front word)
    (apart : (Lexer.after a {} front).reading.joins = false) :
    String.ofList word ∈ qualifiers source := by
  obtain ⟨reads, member, rest, letter, written⟩ := selects
  have legal : ∀ token ∈ Lexer.given a {} front, token.IsLegal := by
    intro token mem
    refine lexical token ?_
    rw [tokens, written, List.append_assoc, Lexer.run_append]
    exact List.mem_append_left _ mem
  have side := Matches.run within .between legal
  rw [Lexer.after_append] at reads
  have fresh : (Lexer.after a {} front).reading ≠ .word [] := by
    intro nothing
    rw [nothing] at side
    cases side with
    | word present => exact present rfl
  obtain ⟨c, others, rfl, first, parts, started⟩ := Lexer.word_of_after fresh reads
  have start := within.isWordStart first
  have begins := side.step_name apart started start
  have parts' : others.all Text.isWordPart = true :=
    List.all_eq_true.mpr fun d mem => within.isWordPart (parts d mem)
  have inside : Mode.gap.run (front ++ c :: others) = .name (c :: others).reverse true := by
    rw [Mode.run_append, Mode.run_cons, begins, Mode.run_name _ _ parts', List.reverse_cons]
  have dot : (Mode.name (c :: others).reverse true).step '.' =
      (.dot (some (c :: others)), none) := by
    rw [Mode.step_name_dot, if_pos rfl, List.reverse_reverse]
  rw [mem_qualifiers]
  refine ⟨c :: others, ?_, rfl⟩
  rw [written, Mode.found_append, inside, Mode.found_cons, dot, Mode.found_cons]
  refine List.mem_append_right _ (List.mem_append_right _ (List.mem_append_left _ ?_))
  show c :: others ∈ (if Text.isWordStart member then some (c :: others) else none).toList
  rw [if_pos (within.isWordStart letter)]
  exact List.mem_singleton_self _

/-- A call behind a comment: its package stands right behind the end of the comment. -/
theorem selectors_found_behind_comment :
    let a : Alphabet := ⟨Text.isLetter, Text.isNumber⟩
    let source := "f(x, /* y.z */time.Now())"
    (a.IsWithin ∧ IsLexical a source ∧ Selects a source "f(x, /* y.z */".toList "time".toList ∧
        (Lexer.after a {} "f(x, /* y.z */".toList).reading.joins = false) ∧
      String.ofList "time".toList ∈ qualifiers source := by
  intro a source
  have within : a.IsWithin := fun c _ => ⟨id, id⟩
  have lexical : IsLexical a source := by
    have read : tokens a source = [.word "f", .operator "(", .word "x", .operator ",",
        .word "time", .operator ".", .word "Now", .operator "(", .operator ")", .operator ")",
        .lineEnd] := by
      decide +kernel
    unfold IsLexical
    rw [read]
    simp [Token.IsLegal]
  have selects : Selects a source "f(x, /* y.z */".toList "time".toList :=
    ⟨by decide +kernel, 'N', "ow())".toList, by decide +kernel, by decide +kernel⟩
  have apart : (Lexer.after a {} "f(x, /* y.z */".toList).reading.joins = false := by
    decide +kernel
  exact ⟨⟨within, lexical, selects, apart⟩, selectors_found within lexical selects apart⟩

/-- The type of the last parameters of a function stands right behind three dots, which are a
token of their own, and is not found. -/
theorem variadic_type_missed :
    let a : Alphabet := ⟨Text.isLetter, Text.isNumber⟩
    let source := "func(...fmt.Stringer)"
    tokens a source = [.word "func", .operator "(", .operator "...", .word "fmt", .operator ".",
        .word "Stringer", .operator ")", .lineEnd] ∧
      Selects a source "func(...".toList "fmt".toList ∧ "fmt" ∉ qualifiers source := by
  intro a source
  refine ⟨by decide +kernel, ⟨by decide +kernel, 'S', "tringer)".toList, by decide +kernel,
    by decide +kernel⟩, ?_⟩
  decide +kernel

end Blockwork.Source
