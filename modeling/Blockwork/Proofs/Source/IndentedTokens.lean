import Blockwork.Proofs.Source.Selectors
import Blockwork.Proofs.Text.Levels

/-!
# Indentation and tokens

What indenting a text with spaces and tabs does to its tokens. At the beginning of a line the
machine is between tokens, in a comment or in a raw string. Between tokens and in comments it passes
over the indentation; in a raw string the indentation becomes part of the text. So the tokens stay
the same, but for raw strings of several lines, which are indented with the code around them
(`tokens_layOut`).
-/

namespace Blockwork.Source

open Text (indentLine indentChars layOut level)

variable {a : Alphabet} {i j : List Char} {c : Char}

/-! ### Indented tokens -/

/-- The text of a raw string in indented code: the lines behind its first are indented. The last of
them is never blank, since the delimiter that closes the string stands in it. -/
def indentInside (j text : List Char) : List Char :=
  (layOut j 0 1 (text ++ ['\x60'])).dropLast

/-- It is the same text exactly when nothing is added or the string stands in one line. -/
theorem indentInside_eq_self_iff {text : List Char} :
    indentInside j text = text ↔ j = [] ∨ '\n' ∉ text := by
  unfold indentInside
  constructor
  · intro same
    by_contra neither
    rw [not_or, not_not] at neither
    obtain ⟨present, several⟩ := neither
    obtain ⟨line, rest, rfl, plain⟩ := List.eq_append_cons_of_mem several
    have quote : Text.isBlank '\x60' = false := by decide
    have shown : (rest ++ ['\x60']).all Text.isBlank = false := by simp [quote]
    have longer := Text.length_lt_indentChars present shown
    have lengths := congrArg List.length same
    rw [List.append_assoc, List.cons_append, Text.layOut_line plain, Text.level_zero,
      Text.indentLine_nil, Text.level_one, List.length_dropLast] at lengths
    simp only [List.length_append, List.length_cons, List.length_nil] at lengths longer
    omega
  · rintro (rfl | flat)
    · rw [Text.layOut_eq_self rfl rfl, List.dropLast_concat]
    · have plain : '\n' ∉ text ++ ['\x60'] := by simpa using flat
      rw [Text.layOut_of_line plain, Text.level_zero, Text.indentLine_nil, List.dropLast_concat]

/-- Spaces and tabs are blank and stay on the line. -/
theorem blank_of_indentation (spaces : ∀ c ∈ j, c = ' ' ∨ c = '\t') :
    j.all Text.isBlank = true ∧ '\n' ∉ j := by
  refine ⟨List.all_eq_true.mpr fun c mem => ?_, fun mem => ?_⟩
  · rcases spaces c mem with rfl | rfl <;> decide
  · rcases spaces _ mem with same | same <;> exact absurd same (by decide)

namespace Token

/-- The token in indented code. -/
def indented (j : List Char) : Token → Token
  | literal delimiter text closed =>
    literal delimiter
      (if delimiter = '\x60' then String.ofList (indentInside j text.toList) else text) closed
  | other => other

/-- Not a raw string of several lines. -/
def IsFlat : Token → Prop
  | literal delimiter text _ => delimiter = '\x60' → '\n' ∉ text.toList
  | _ => True

/-- A string or a rune: its delimiter, and what is written inside. In a raw string this is what the
string says, in the others it determines that. -/
def literal? : Token → Option (Char × String)
  | literal delimiter text _ => some (delimiter, text)
  | _ => none

theorem indented_of_isFlat {token : Token} (flat : token.IsFlat) : token.indented j = token := by
  cases token with
  | literal delimiter text closed =>
    show literal _ (if _ then _ else _) _ = _
    split
    · rename_i raw
      rw [indentInside_eq_self_iff.mpr (.inr (flat raw)), String.ofList_toList]
    · rfl
  | _ => rfl

end Token

/-- The reading is not that of a raw string of several lines. -/
def Reading.IsFlat : Reading → Prop
  | raw inside => '\n' ∉ inside
  | quoted delimiter .. => delimiter ≠ '\x60'
  | _ => True

/-- What is being read ends with its line. -/
def Reading.EndsInLine : Reading → Prop
  | raw _ | blockComment .. => False
  | _ => True

namespace Lexer

open Reading

/-! ### Inside a line -/

/-- The machine and the tokens complete so far show no raw string of several lines. -/
def IsFlat (read : Lexer × List Token) : Prop :=
  read.1.reading.IsFlat ∧ ∀ token ∈ read.2, token.IsFlat

theorem isFlat_lineEnd (ends : Bool) : ∀ token ∈ lineEnd ends, token.IsFlat := by
  cases ends with
  | false => exact nofun
  | true => exact List.forall_mem_singleton.mpr trivial

theorem isFlat_tokens {reading : Reading} (flat : reading.IsFlat) :
    ∀ token ∈ reading.tokens, token.IsFlat := by
  cases reading with
  | between | lineComment | blockComment => exact nofun
  | word letters => exact List.forall_mem_singleton.mpr trivial
  | number numeral digits => exact List.forall_mem_singleton.mpr trivial
  | operator marks =>
    simp only [Reading.tokens]
    split
    · exact List.forall_mem_cons.mpr ⟨trivial, List.forall_mem_singleton.mpr trivial⟩
    · exact List.forall_mem_singleton.mpr trivial
  | quoted delimiter escaped inside =>
    exact List.forall_mem_singleton.mpr fun raw => absurd raw flat
  | raw inside =>
    refine List.forall_mem_singleton.mpr fun _ => ?_
    rw [String.toList_ofList]
    exact fun mem => flat (List.mem_reverse.mp mem)

theorem isFlat_start (ends : Bool) (c : Char) : IsFlat (start a ends c) := by
  unfold start
  split
  · exact ⟨trivial, isFlat_lineEnd ends⟩
  split
  · exact ⟨trivial, List.forall_mem_nil _⟩
  split
  · exact ⟨trivial, List.forall_mem_nil _⟩
  split
  · exact ⟨trivial, List.forall_mem_nil _⟩
  split
  · rename_i mark
    refine ⟨?_, List.forall_mem_nil _⟩
    rintro rfl
    exact absurd mark (by decide)
  split
  · exact ⟨List.not_mem_nil, List.forall_mem_nil _⟩
  split
  · exact ⟨trivial, List.forall_mem_nil _⟩
  · exact ⟨trivial, List.forall_mem_singleton.mpr trivial⟩

theorem isFlat_leave {s : Lexer} (flat : s.reading.IsFlat) (c : Char) : IsFlat (leave a s c) := by
  refine ⟨(isFlat_start _ c).1, fun token mem => ?_⟩
  rcases List.mem_append.mp mem with left | started
  · exact isFlat_tokens flat token left
  · exact (isFlat_start _ c).2 token started

/-- No character completes a raw string of several lines, and none inside a line makes one. -/
theorem isFlat_step {s : Lexer} (flat : s.reading.IsFlat) (c : Char) :
    (∀ token ∈ (s.step a c).2, token.IsFlat) ∧
      (c ≠ '\n' → (s.step a c).1.reading.IsFlat) := by
  have whole : ∀ {read : Lexer × List Token}, IsFlat read →
      (∀ token ∈ read.2, token.IsFlat) ∧ (c ≠ '\n' → read.1.reading.IsFlat) :=
    fun flat => ⟨flat.2, fun _ => flat.1⟩
  have leaves := whole (isFlat_leave (a := a) flat c)
  unfold step
  cases reading : s.reading with
  | between => exact whole (isFlat_start _ c)
  | word letters =>
    simp only
    split
    · exact whole ⟨trivial, List.forall_mem_nil _⟩
    · exact leaves
  | number numeral digits =>
    simp only
    split
    · exact whole ⟨trivial, List.forall_mem_nil _⟩
    · exact leaves
  | operator marks =>
    rw [reading] at flat
    simp only
    unfold stepOperator
    repeat' split
    · exact whole ⟨trivial, List.forall_mem_nil _⟩
    · exact whole ⟨trivial, List.forall_mem_nil _⟩
    · exact whole ⟨trivial, List.forall_mem_nil _⟩
    · exact whole ⟨trivial, List.forall_mem_singleton.mpr trivial⟩
    · exact whole ⟨trivial, List.forall_mem_nil _⟩
    · exact whole (isFlat_leave (s := ⟨operator marks, s.ends⟩) flat c)
  | quoted delimiter escaped inside =>
    rw [reading] at flat
    simp only
    unfold stepQuoted
    repeat' split
    · exact whole (isFlat_leave (s := ⟨quoted delimiter escaped inside, s.ends⟩) flat c)
    · exact whole ⟨flat, List.forall_mem_nil _⟩
    · exact whole ⟨trivial, List.forall_mem_singleton.mpr fun raw => absurd raw flat⟩
    · exact whole ⟨flat, List.forall_mem_nil _⟩
  | raw inside =>
    rw [reading] at flat
    simp only
    split
    · refine whole ⟨trivial, List.forall_mem_singleton.mpr fun _ => ?_⟩
      rw [String.toList_ofList]
      exact fun mem => flat (List.mem_reverse.mp mem)
    · refine ⟨List.forall_mem_nil _, fun inLine => ?_⟩
      show '\n' ∉ (if _ then _ else _ : List Char)
      split
      · exact flat
      · exact fun mem => (List.mem_cons.mp mem).elim (fun same => inLine same.symm) flat
  | lineComment =>
    simp only
    split
    · exact leaves
    · exact whole ⟨flat, List.forall_mem_nil _⟩
  | blockComment star broke =>
    simp only
    repeat' split
    · exact whole ⟨trivial, isFlat_lineEnd _⟩
    · exact whole ⟨trivial, List.forall_mem_nil _⟩
    · exact whole ⟨trivial, List.forall_mem_nil _⟩

/-- A line makes no raw string of several lines. -/
theorem isFlat_given {s : Lexer} (flat : s.reading.IsFlat) {line : List Char}
    (plain : '\n' ∉ line) : IsFlat (after a s line, given a s line) := by
  induction line generalizing s with
  | nil => exact ⟨flat, List.forall_mem_nil _⟩
  | cons c rest ih =>
    have here : c ≠ '\n' := fun same => plain (same ▸ List.mem_cons_self)
    have there : '\n' ∉ rest := fun mem => plain (List.mem_cons_of_mem _ mem)
    have step := isFlat_step (a := a) flat c
    have later := ih (step.2 here) there
    refine ⟨later.1, fun token mem => ?_⟩
    rcases List.mem_append.mp mem with first | behind
    · exact step.1 token first
    · exact later.2 token behind

/-! ### At the beginning of a line -/

theorem given_append (s : Lexer) (cs ds : List Char) :
    given a s (cs ++ ds) = given a s cs ++ given a (after a s cs) ds := by
  induction cs generalizing s with
  | nil => rfl
  | cons c cs ih =>
    rw [List.cons_append, given, ih, given, List.append_assoc]
    rfl

theorem newline_not_next (numeral : Numeral) : numeral.next? '\n' = none := by
  cases numeral with
  | whole hex => cases hex <;> decide
  | fraction hex => cases hex <;> decide
  | zero | exponent | power | imaginary => decide

theorem newline_not_operator (marks : List Char) :
    String.ofList (marks ++ ['\n']) ∉ operators := by
  have none : ∀ operator ∈ operators, '\n' ∉ operator.toList := by decide
  intro mem
  refine none _ mem ?_
  rw [String.toList_ofList]
  exact List.mem_append_right _ (List.mem_singleton_self _)

/-- The end of the line is read as the end of the text is, and leaves the machine between tokens. -/
theorem step_newline {s : Lexer} (ends : s.reading.EndsInLine) :
    s.step a '\n' = (⟨between, false⟩, run a s []) := by
  have left : leave a s '\n' = (⟨between, false⟩, run a s []) := rfl
  rw [← left]
  unfold step
  cases reading : s.reading with
  | between =>
    unfold leave
    rw [reading]
    rfl
  | word letters => rfl
  | number numeral digits =>
    simp only
    rw [newline_not_next]
  | operator marks =>
    have stops : ¬ (marks ++ ['\n'] = ['.', '.'] ∨
        String.ofList (marks ++ ['\n']) ∈ operators) := by
      rintro (same | mem)
      · have last := congrArg List.getLast? same
        rw [List.getLast?_append] at last
        exact absurd (Option.some.inj last) (by decide)
      · exact newline_not_operator _ mem
    have noDigit : Text.isDigit '\n' = false := by decide
    have whole : s = ⟨operator marks, s.ends⟩ := by rw [← reading]
    simp only
    unfold stepOperator
    rw [if_neg (by simp), if_neg (by simp), noDigit, if_neg (by simp), if_neg (by simp),
      if_neg stops, ← whole]
  | quoted delimiter escaped inside =>
    have whole : s = ⟨quoted delimiter escaped inside, s.ends⟩ := by rw [← reading]
    simp only
    unfold stepQuoted
    rw [if_pos rfl, ← whole]
  | lineComment => rfl
  | raw inside | blockComment star broke =>
    rw [reading] at ends
    exact ends.elim

/-- The text of a raw string in indented code, behind a line that has ended in it: what is still to
come of it is indented line by line. -/
def Precedes (j before before' : List Char) : Prop :=
  ∀ behind, layOut j 0 1 (before ++ behind) = before' ++ indentChars j behind

/-- The machines at the beginning of a line in a text and in the indented text. -/
inductive Beside (j : List Char) : Lexer → Lexer → Prop where
  | between (ends : Bool) : Beside j ⟨between, ends⟩ ⟨between, ends⟩
  | comment (ends : Bool) :
      Beside j ⟨blockComment false true, ends⟩ ⟨blockComment false true, ends⟩
  | raw {before before' : List Char} (ends : Bool) (precedes : Precedes j before before') :
      Beside j ⟨raw before.reverse, ends⟩ ⟨raw before'.reverse, ends⟩

/-- Outside of raw strings the indentation is passed over. -/
theorem pass_indentation {reading : Reading}
    (passes : reading = between ∨ reading = blockComment false true)
    (spaces : ∀ c ∈ j, c = ' ' ∨ c = '\t') (ends : Bool) :
    after a ⟨reading, ends⟩ j = ⟨reading, ends⟩ ∧ given a ⟨reading, ends⟩ j = [] := by
  induction j with
  | nil => exact ⟨rfl, rfl⟩
  | cons c rest ih =>
    have step : (Lexer.mk reading ends).step a c = (⟨reading, ends⟩, []) := by
      rcases passes with rfl | rfl
      · rcases spaces c List.mem_cons_self with rfl | rfl <;> rfl
      · rcases spaces c List.mem_cons_self with rfl | rfl <;> rfl
    have later := ih fun d mem => spaces d (List.mem_cons_of_mem _ mem)
    refine ⟨?_, ?_⟩
    · show after a ((Lexer.mk reading ends).step a c).1 rest = _
      rw [step]
      exact later.1
    · rw [given, step]
      exact later.2

/-- In a raw string everything but carriage returns is kept. -/
theorem pass_raw {text : List Char} (within : '\x60' ∉ text) (inside : List Char) (ends : Bool) :
    after a ⟨raw inside, ends⟩ text =
        ⟨raw ((text.filter (· != '\r')).reverse ++ inside), ends⟩ ∧
      given a ⟨raw inside, ends⟩ text = [] := by
  induction text generalizing inside with
  | nil => exact ⟨rfl, rfl⟩
  | cons c rest ih =>
    have here : c ≠ '\x60' := fun same => within (same ▸ List.mem_cons_self)
    have there : '\x60' ∉ rest := fun mem => within (List.mem_cons_of_mem _ mem)
    have step : (Lexer.mk (raw inside) ends).step a c =
        (⟨raw (if c = '\r' then inside else c :: inside), ends⟩, []) := by
      unfold step
      simp only
      rw [if_neg here]
    have later := ih there (if c = '\r' then inside else c :: inside)
    refine ⟨?_, ?_⟩
    · show after a ((Lexer.mk (raw inside) ends).step a c).1 rest = _
      rw [step, later.1]
      by_cases carriage : c = '\r'
      · simp [carriage]
      · simp [carriage]
    · rw [given, step]
      exact later.2

/-! ### One line after the other -/

/-- A line that does not start in a raw string leaves no tokens that indentation changes, and the
machine in a place that is the same with indentation. -/
theorem beside_of_isFlat {s : Lexer} (flat : s.reading.IsFlat) {line : List Char}
    (plain : '\n' ∉ line) (j : List Char) :
    (given a s (line ++ ['\n'])).map (Token.indented j) = given a s (line ++ ['\n']) ∧
      Beside j (after a s (line ++ ['\n'])) (after a s (line ++ ['\n'])) := by
  have inLine := isFlat_given (a := a) flat plain
  refine ⟨?_, ?_⟩
  · refine (List.map_congr_left fun token mem => ?_).trans (List.map_id _)
    rw [given_append, given, given, List.append_nil] at mem
    rcases List.mem_append.mp mem with before | last
    · exact Token.indented_of_isFlat (inLine.2 token before)
    · exact Token.indented_of_isFlat ((isFlat_step inLine.1 '\n').1 token last)
  · rw [after_append]
    generalize after a s line = behind at inLine
    obtain ⟨reading, ends⟩ := behind
    show Beside j ((Lexer.mk reading ends).step a '\n').1 ((Lexer.mk reading ends).step a '\n').1
    have ended (inLine : reading.EndsInLine) : Beside j ((Lexer.mk reading ends).step a '\n').1
        ((Lexer.mk reading ends).step a '\n').1 := by
      rw [step_newline inLine]
      exact .between false
    cases reading with
    | raw inside =>
      have flatInside : '\n' ∉ inside.reverse := fun mem => inLine.1 (List.mem_reverse.mp mem)
      have precedes : Precedes j (inside.reverse ++ ['\n']) (inside.reverse ++ ['\n']) := by
        intro behind
        rw [List.append_assoc, List.singleton_append, Text.layOut_line flatInside,
          Text.level_zero, Text.indentLine_nil, Text.level_one, List.append_assoc]
        rfl
      have reached := Beside.raw ends precedes
      rw [List.reverse_append, List.reverse_reverse] at reached
      exact reached
    | blockComment star broke =>
      have reached : (Lexer.mk (blockComment star broke) ends).step a '\n' =
          (⟨blockComment false true, ends⟩, []) := by
        unfold step
        simp only
        rw [if_neg fun closes => absurd closes.2 (by decide)]
        cases broke <;> rfl
      rw [reached]
      exact .comment ends
    | between | word | number | operator | quoted | lineComment =>
      exact ended trivial

/-- One line more of a raw string. -/
theorem Precedes.line {before before' line : List Char} (precedes : Precedes j before before')
    (plain : '\n' ∉ line) :
    Precedes j (before ++ (line ++ ['\n'])) (before' ++ (indentLine j line ++ ['\n'])) := by
  intro behind
  have whole : before ++ (line ++ ['\n']) ++ behind = before ++ (line ++ '\n' :: behind) := by simp
  rw [whole, precedes, Text.indentChars_line plain]
  simp

/-- The end of a raw string. -/
theorem Precedes.close {before before' last : List Char} (precedes : Precedes j before before')
    (plain : '\n' ∉ last) : indentInside j (before ++ last) = before' ++ (j ++ last) := by
  have plain' : '\n' ∉ last ++ ['\x60'] := by simpa using plain
  have present : ¬ (last ++ ['\x60']).all Text.isBlank = true := by
    have quote : Text.isBlank '\x60' = false := by decide
    simp [quote]
  unfold indentInside
  rw [List.append_assoc, precedes, Text.indentChars_of_line plain', indentLine, if_neg present,
    ← List.append_assoc j, ← List.append_assoc, List.dropLast_concat]

/-- What a raw string keeps of an indented line is what it keeps of the line, indented. -/
theorem filter_indentLine (kept : j.filter (· != '\r') = j) (line : List Char) :
    (indentLine j line).filter (· != '\r') = indentLine j (line.filter (· != '\r')) := by
  have same : (line.filter (· != '\r')).all Text.isBlank = line.all Text.isBlank := by
    induction line with
    | nil => rfl
    | cons c rest ih =>
      by_cases carriage : c = '\r'
      · have blank : Text.isBlank '\r' = true := by decide
        rw [carriage, List.filter_cons_of_neg (by decide), ih, List.all_cons, blank, Bool.true_and]
      · rw [List.filter_cons_of_pos (by simpa using carriage), List.all_cons, List.all_cons, ih]
  unfold indentLine
  rw [same]
  split
  · rfl
  · rw [List.filter_append, kept]

/-- Spaces and tabs have none of the characters that a raw string treats in a way of its own. -/
theorem indentation_in_raw (spaces : ∀ c ∈ j, c = ' ' ∨ c = '\t') :
    '\x60' ∉ j ∧ j.filter (· != '\r') = j := by
  refine ⟨fun mem => ?_, List.filter_eq_self.mpr fun c mem => ?_⟩
  · rcases spaces _ mem with same | same <;> exact absurd same (by decide)
  · rcases spaces c mem with rfl | rfl <;> decide

/-- A line that goes on in a raw string. -/
theorem Precedes.inside_line {before before' line : List Char}
    (precedes : Precedes j before before') (plain : '\n' ∉ line) (within : '\x60' ∉ line)
    (spaces : ∀ c ∈ j, c = ' ' ∨ c = '\t') (ends : Bool) :
    given a ⟨raw before'.reverse, ends⟩ (indentLine j line ++ ['\n']) =
        (given a ⟨raw before.reverse, ends⟩ (line ++ ['\n'])).map (Token.indented j) ∧
      Beside j (after a ⟨raw before.reverse, ends⟩ (line ++ ['\n']))
        (after a ⟨raw before'.reverse, ends⟩ (indentLine j line ++ ['\n'])) := by
  obtain ⟨noQuote, kept⟩ := indentation_in_raw spaces
  have within' : '\x60' ∉ indentLine j line := by
    unfold indentLine
    split
    · exact within
    · exact fun mem => (List.mem_append.mp mem).elim noQuote within
  have newline : ∀ {text : List Char}, '\x60' ∉ text → '\x60' ∉ text ++ ['\n'] := by
    intro text within mem
    rcases List.mem_append.mp mem with mem | mem
    · exact within mem
    · exact absurd (List.mem_singleton.mp mem) (by decide)
  obtain ⟨reached, nothing⟩ := pass_raw (a := a) (newline within) before.reverse ends
  obtain ⟨reached', nothing'⟩ := pass_raw (a := a) (newline within') before'.reverse ends
  rw [nothing, nothing', reached, reached', ← List.reverse_append, ← List.reverse_append,
    List.filter_append, List.filter_append, filter_indentLine kept]
  exact ⟨rfl, .raw ends (precedes.line fun mem => plain (List.mem_filter.mp mem).1)⟩

/-- The rest of a raw string up to the delimiter, and what stands behind it. -/
theorem read_close {last : List Char} (within : '\x60' ∉ last) (before behind : List Char)
    (ends : Bool) :
    given a ⟨raw before.reverse, ends⟩ (last ++ '\x60' :: behind) =
        .literal '\x60' (String.ofList (before ++ last.filter (· != '\r'))) true ::
          given a ⟨between, true⟩ behind ∧
      after a ⟨raw before.reverse, ends⟩ (last ++ '\x60' :: behind) =
        after a ⟨between, true⟩ behind := by
  obtain ⟨reached, nothing⟩ := pass_raw (a := a) within before.reverse ends
  have kept : ((last.filter (· != '\r')).reverse ++ before.reverse).reverse =
      before ++ last.filter (· != '\r') := by
    rw [List.reverse_append, List.reverse_reverse, List.reverse_reverse]
  rw [given_append, after_append, reached, nothing, ← kept]
  exact ⟨rfl, rfl⟩

/-- A line in which a raw string ends. What stands behind the string is read as a line of its
own. -/
theorem Precedes.closing_line {before before' last behind : List Char}
    (precedes : Precedes j before before') (within : '\x60' ∉ last) (plain : '\n' ∉ last)
    (plainBehind : '\n' ∉ behind) (spaces : ∀ c ∈ j, c = ' ' ∨ c = '\t') (ends : Bool) :
    given a ⟨raw before'.reverse, ends⟩ (indentLine j (last ++ '\x60' :: behind) ++ ['\n']) =
        (given a ⟨raw before.reverse, ends⟩ (last ++ '\x60' :: behind ++ ['\n'])).map
          (Token.indented j) ∧
      Beside j (after a ⟨raw before.reverse, ends⟩ (last ++ '\x60' :: behind ++ ['\n']))
        (after a ⟨raw before'.reverse, ends⟩
          (indentLine j (last ++ '\x60' :: behind) ++ ['\n'])) := by
  obtain ⟨noQuote, kept⟩ := indentation_in_raw spaces
  have within' : '\x60' ∉ j ++ last := fun mem => (List.mem_append.mp mem).elim noQuote within
  have present : ¬ (last ++ '\x60' :: behind).all Text.isBlank = true := by
    have quote : Text.isBlank '\x60' = false := by decide
    simp [quote]
  have whole : last ++ '\x60' :: behind ++ ['\n'] = last ++ '\x60' :: (behind ++ ['\n']) := by simp
  have whole' : indentLine j (last ++ '\x60' :: behind) ++ ['\n'] =
      (j ++ last) ++ '\x60' :: (behind ++ ['\n']) := by
    rw [indentLine, if_neg present]
    simp
  obtain ⟨tokens, reached⟩ := read_close (a := a) within before (behind ++ ['\n']) ends
  obtain ⟨tokens', reached'⟩ := read_close (a := a) within' before' (behind ++ ['\n']) ends
  have flat := beside_of_isFlat (a := a) (s := ⟨between, true⟩) trivial plainBehind j
  have closed : indentInside j (before ++ last.filter (· != '\r')) =
      before' ++ (j ++ last.filter (· != '\r')) :=
    precedes.close fun mem => plain (List.mem_filter.mp mem).1
  rw [whole, whole', tokens, tokens', reached, reached', List.map_cons, flat.1, Token.indented,
    if_pos rfl, String.toList_ofList, closed, List.filter_append, kept]
  exact ⟨rfl, flat.2⟩

/-- Where the indentation is passed over, the same line is read. -/
theorem read_indentLine {reading : Reading}
    (passes : reading = between ∨ reading = blockComment false true)
    (spaces : ∀ c ∈ j, c = ' ' ∨ c = '\t') (ends : Bool) (line : List Char) :
    given a ⟨reading, ends⟩ (indentLine j line ++ ['\n']) =
        given a ⟨reading, ends⟩ (line ++ ['\n']) ∧
      after a ⟨reading, ends⟩ (indentLine j line ++ ['\n']) =
        after a ⟨reading, ends⟩ (line ++ ['\n']) := by
  unfold indentLine
  split
  · exact ⟨rfl, rfl⟩
  · obtain ⟨stays, nothing⟩ := pass_indentation (a := a) passes spaces ends
    rw [List.append_assoc, given_append, after_append, stays, nothing]
    exact ⟨rfl, rfl⟩

/-- One line of a text and of the indented text. -/
theorem Beside.line {s s' : Lexer} (beside : Beside j s s') {line : List Char}
    (plain : '\n' ∉ line) (spaces : ∀ c ∈ j, c = ' ' ∨ c = '\t') :
    given a s' (indentLine j line ++ ['\n']) =
        (given a s (line ++ ['\n'])).map (Token.indented j) ∧
      Beside j (after a s (line ++ ['\n'])) (after a s' (indentLine j line ++ ['\n'])) := by
  cases beside with
  | between ends =>
    obtain ⟨tokens, reached⟩ := read_indentLine (a := a) (.inl rfl) spaces ends line
    have flat := beside_of_isFlat (a := a) (s := ⟨.between, ends⟩) trivial plain j
    rw [tokens, reached, flat.1]
    exact ⟨rfl, flat.2⟩
  | comment ends =>
    obtain ⟨tokens, reached⟩ := read_indentLine (a := a) (.inr rfl) spaces ends line
    have flat := beside_of_isFlat (a := a) (s := ⟨.blockComment false true, ends⟩) trivial plain j
    rw [tokens, reached, flat.1]
    exact ⟨rfl, flat.2⟩
  | raw ends precedes =>
    by_cases closes : '\x60' ∈ line
    · obtain ⟨last, behind, rfl, within⟩ := List.eq_append_cons_of_mem closes
      have plainLast : '\n' ∉ last := fun mem => plain (List.mem_append_left _ mem)
      have plainBehind : '\n' ∉ behind := fun mem =>
        plain (List.mem_append_right _ (List.mem_cons_of_mem _ mem))
      exact precedes.closing_line within plainLast plainBehind spaces ends
    · exact precedes.inside_line plain closes spaces ends

/-- Complete lines of a text and of the indented text. -/
theorem Beside.run {s s' : Lexer} (beside : Beside j s s')
    (spaces : ∀ c ∈ j, c = ' ' ∨ c = '\t') {cs : List Char} (complete : Text.IsComplete cs) :
    given a s' (indentChars j cs) = (given a s cs).map (Token.indented j) ∧
      Beside j (after a s cs) (after a s' (indentChars j cs)) := by
  induction cs, complete using Text.IsComplete.induction generalizing s s' with
  | nil => exact ⟨rfl, beside⟩
  | first line rest whole plain ih =>
    obtain ⟨tokens, beside⟩ := beside.line (a := a) plain spaces
    obtain ⟨later, reached⟩ := ih beside
    rw [Text.indentChars_line plain, List.append_cons, List.append_cons line,
      given_append s' (indentLine j line ++ ['\n']), given_append s (line ++ ['\n']),
      after_append s' (indentLine j line ++ ['\n']), after_append s (line ++ ['\n']), tokens, later,
      List.map_append]
    exact ⟨rfl, reached⟩

end Lexer

/-! ### Texts -/

/-- The token is not a literal that is left open. -/
def Token.isClosed : Token → Bool
  | literal _ _ closed => closed
  | _ => true

/-- A comment between delimiters. -/
def Reading.isBlockComment : Reading → Bool
  | blockComment .. => true
  | _ => false

/-- Every string, every rune and every comment between delimiters is closed. -/
structure ClosesLiterals (a : Alphabet) (text : List Char) : Prop where
  literals : ∀ token ∈ Lexer.run a {} text, token.isClosed = true
  comments : (Lexer.after a {} text).reading.isBlockComment = false

instance (a : Alphabet) (text : List Char) : Decidable (ClosesLiterals a text) :=
  decidable_of_iff ((Lexer.run a {} text).all Token.isClosed = true ∧
      (Lexer.after a {} text).reading.isBlockComment = false)
    ⟨fun ⟨literals, comments⟩ => ⟨List.all_eq_true.mp literals, comments⟩,
      fun ⟨literals, comments⟩ => ⟨List.all_eq_true.mpr literals, comments⟩⟩

namespace Lexer

theorem run_eq_given (text : List Char) :
    run a {} text = given a {} text ++ run a (after a {} text) [] := by
  conv_lhs => rw [← List.append_nil text, run_append]

/-- What is read of such a text as a line of its own, or as several. -/
theorem read_of_closesLiterals {text : List Char} (closes : ClosesLiterals a text) :
    given a {} (text ++ ['\n']) = run a {} text ∧
      after a {} (text ++ ['\n']) = ⟨.between, false⟩ := by
  obtain ⟨literals, comments⟩ := closes
  rw [run_eq_given] at literals ⊢
  have inLine : (after a {} text).reading.EndsInLine := by
    generalize after a {} text = behind at literals comments
    obtain ⟨reading, ends⟩ := behind
    cases reading with
    | raw inside =>
      have left := literals (.literal '\x60' (String.ofList inside.reverse) false)
        (List.mem_append_right _ (List.mem_append_left _ (List.mem_singleton_self _)))
      exact nomatch left
    | blockComment star broke => exact nomatch comments
    | between | word | number | operator | quoted | lineComment => trivial
  rw [given_append, after_append, given, given, List.append_nil, step_newline inLine]
  exact ⟨rfl, congrArg Prod.fst (step_newline inLine)⟩

/-- The tokens of a text with a newline behind it, its first line indented by `n` levels and the
other lines by `d`. -/
theorem run_layOut (spaces : ∀ c ∈ i, c = ' ' ∨ c = '\t') {text : List Char}
    (closes : ClosesLiterals a text) (n d : Nat) :
    run a {} (layOut i n d (text ++ ['\n'])) =
      (run a {} text).map (Token.indented (level i d)) := by
  have levels (k : Nat) : ∀ c ∈ level i k, c = ' ' ∨ c = '\t' :=
    fun c mem => spaces c (Text.mem_of_mem_level mem)
  obtain ⟨line, rest, split, plain, complete⟩ :=
    Text.isComplete_append_newline.exists_first_line (List.append_ne_nil_of_right_ne_nil text nofun)
  obtain ⟨whole, reached⟩ := read_of_closesLiterals closes
  rw [split, List.append_cons] at whole reached
  -- The first line is read as it is, and from the second line on the machines are side by side.
  obtain ⟨first, same⟩ := read_indentLine (a := a) (.inl rfl) (levels n) false line
  obtain ⟨flat, beside⟩ :=
    beside_of_isFlat (a := a) (s := ⟨.between, false⟩) trivial plain (level i d)
  obtain ⟨others, ended⟩ := beside.run (a := a) (levels d) complete
  rw [← after_append _ _ rest, reached] at ended
  rw [run_eq_given, split, Text.layOut_line plain, List.append_cons, ← whole,
    given_append _ (indentLine _ _ ++ _), after_append _ (indentLine _ _ ++ _), first, same, others,
    given_append _ (line ++ _), List.map_append, flat]
  generalize after a (after a {} (line ++ ['\n'])) (indentChars (level i d) rest) = behind
    at ended ⊢
  cases ended with
  | between => exact List.append_nil _

end Lexer

/-- **Indented tokens.** A text that is laid out by levels of spaces and tabs, with a newline behind
it, has the tokens of the text, but for raw strings of several lines, which are indented by the
levels of the later lines. -/
theorem tokens_layOut (spaces : ∀ c ∈ i, c = ' ' ∨ c = '\t') {text : String}
    (closes : ClosesLiterals a text.toList) (n d : Nat) :
    tokens a (String.ofList (layOut i n d (text.toList ++ ['\n']))) =
      (tokens a text).map (Token.indented (level i d)) := by
  unfold tokens
  rw [String.toList_ofList, Lexer.run_layOut spaces closes]

/-! ### Literals -/

/-- The strings and the runes of a text. -/
def literals (a : Alphabet) (code : String) : List (Char × String) :=
  (tokens a code).filterMap Token.literal?

/-- Indentation leaves a literal as it is unless it is a raw string of several lines. -/
theorem Token.literal?_indented_iff {token : Token} :
    (token.indented j).literal? = token.literal? ↔ j = [] ∨ token.IsFlat := by
  cases token with
  | literal delimiter text closed =>
    have texts : String.ofList (indentInside j text.toList) = text ↔
        j = [] ∨ '\n' ∉ text.toList := by
      rw [← indentInside_eq_self_iff, ← String.toList_inj, String.toList_ofList]
    unfold indented literal? IsFlat
    by_cases raw : delimiter = '\x60'
    · simp [raw, texts]
    · simp [raw]
  | _ => exact iff_of_true rfl (.inr trivial)

theorem Token.isSome_literal?_indented (token : Token) :
    (token.indented j).literal?.isSome = token.literal?.isSome := by
  cases token <;> rfl

/-- Indentation leaves the literals of a text as they are exactly when it is empty or none of them
is a raw string of several lines. -/
theorem filterMap_literal?_indented_iff {ts : List Token} :
    (ts.map (Token.indented j)).filterMap Token.literal? = ts.filterMap Token.literal? ↔
      j = [] ∨ ∀ token ∈ ts, token.IsFlat := by
  induction ts with
  | nil => exact iff_of_true rfl (.inr nofun)
  | cons token rest ih =>
    rw [List.forall_mem_cons, or_and_left, ← ih, ← Token.literal?_indented_iff, List.map_cons]
    have alike := Token.isSome_literal?_indented (j := j) token
    cases here : token.literal? with
    | none =>
      rw [here, Option.isSome_none, Option.isSome_eq_false_iff, Option.isNone_iff_eq_none] at alike
      rw [List.filterMap_cons_none here, List.filterMap_cons_none alike]
      exact (and_iff_right alike).symm
    | some found =>
      rw [here, Option.isSome_some, Option.isSome_iff_exists] at alike
      obtain ⟨changed, there⟩ := alike
      rw [List.filterMap_cons_some here, List.filterMap_cons_some there, there, List.cons.injEq,
        Option.some.injEq]

/-- Between tokens or in a word. -/
def Reading.IsOpen : Reading → Prop
  | between | word _ => True
  | _ => False

/-- A text that is laid out by levels has the literals of the text exactly when nothing is added to
its later lines or it has no raw string of several lines. -/
theorem literals_layOut_iff (spaces : ∀ c ∈ i, c = ' ' ∨ c = '\t') {text : String}
    (closes : ClosesLiterals a text.toList) (n d : Nat) :
    literals a (String.ofList (layOut i n d (text.toList ++ ['\n']))) = literals a text ↔
      d = 0 ∨ i = [] ∨ ∀ token ∈ tokens a text, token.IsFlat := by
  unfold literals
  rw [tokens_layOut spaces closes, filterMap_literal?_indented_iff, Text.level_eq_nil_iff, or_assoc]

theorem Lexer.literal?_lineEnd (ends : Bool) : ∀ token ∈ lineEnd ends, token.literal? = none := by
  cases ends with
  | false => exact nofun
  | true => exact List.forall_mem_singleton.mpr rfl

/-- A blank character that starts something new starts a word at most. -/
theorem Lexer.start_of_isBlank (blank : Text.isBlank c = true) (ends : Bool) :
    (start a ends c).1.reading.IsOpen ∧ ∀ token ∈ (start a ends c).2, token.literal? = none := by
  have noDigit : Text.isDigit c = false := Text.not_isDigit_of_isBlank blank
  have noQuote : ¬ (c = '"' ∨ c = '\x27') := by
    rintro (rfl | rfl) <;> exact absurd blank (by decide)
  have noRaw : c ≠ '\x60' := by
    rintro rfl
    exact absurd blank (by decide)
  have noOperator : String.singleton c ∉ operators := by
    have marks : (operators.all fun operator => !operator.toList.any Text.isBlank) = true := by
      decide +kernel
    intro listed
    have shown := List.all_eq_true.mp marks _ listed
    simp [blank] at shown
  unfold start
  rw [noDigit, if_neg Bool.false_ne_true, if_neg noQuote, if_neg noRaw, if_neg noOperator]
  repeat' split
  · exact ⟨trivial, literal?_lineEnd ends⟩
  · exact ⟨trivial, nofun⟩
  · exact ⟨trivial, nofun⟩
  · exact ⟨trivial, List.forall_mem_singleton.mpr rfl⟩

theorem Lexer.step_of_isBlank {s : Lexer} (opened : s.reading.IsOpen)
    (blank : Text.isBlank c = true) :
    (s.step a c).1.reading.IsOpen ∧ ∀ token ∈ (s.step a c).2, token.literal? = none := by
  obtain ⟨reading, ends⟩ := s
  cases reading with
  | between => exact start_of_isBlank blank ends
  | word letters =>
    unfold step
    simp only
    split
    · exact ⟨trivial, nofun⟩
    · have started := start_of_isBlank (a := a) blank
        (endsBehind ends [.word (String.ofList letters.reverse)])
      exact ⟨started.1, List.forall_mem_cons.mpr ⟨rfl, started.2⟩⟩
  | number | operator | quoted | raw | lineComment | blockComment => exact opened.elim

/-- A blank text has no literals. -/
theorem literals_of_blank {code : String} (blank : Text.isBlankText code = true) :
    literals a code = [] := by
  have none : ∀ s : Lexer, s.reading.IsOpen → ∀ cs : List Char, cs.all Text.isBlank = true →
      ∀ token ∈ Lexer.run a s cs, token.literal? = none := by
    intro s opened cs blanks
    induction cs generalizing s with
    | nil =>
      refine List.forall_mem_append.mpr ⟨?_, Lexer.literal?_lineEnd _⟩
      obtain ⟨reading, ends⟩ := s
      cases reading with
      | between => exact nofun
      | word letters => exact List.forall_mem_singleton.mpr rfl
      | number | operator | quoted | raw | lineComment | blockComment => exact opened.elim
    | cons c rest ih =>
      rw [List.all_cons, Bool.and_eq_true] at blanks
      have step := Lexer.step_of_isBlank (a := a) opened blanks.1
      exact List.forall_mem_append.mpr ⟨step.2, ih _ step.1 blanks.2⟩
  exact List.filterMap_eq_nil_iff.mpr (none {} trivial code.toList blank)

end Blockwork.Source
