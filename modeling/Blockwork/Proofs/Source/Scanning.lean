import Blockwork.Proofs.Source.Literals
import Blockwork.Proofs.Text.Classes
import Blockwork.Proofs.Text.Lines
import Blockwork.Source.Qualifiers

/-!
# The scanner on pieces of source text

How the qualifier scanner goes through the pieces that generated code is made of:

* **blanks** — `run_gap_of_blank`: between tokens they change nothing;
* **literals** — `run_quoteChars`: an interpreted literal leads from a gap to a gap, whatever
  text it stands for;
* **names** — `run_gap_identifier`, and `run_qualified` for a name behind a package;
* **indentation** — `Roomy.run_indentChars`: spaces and tabs in front of lines change nothing,
  even inside literals and comments that go over several lines.
-/

namespace Blockwork.Source.Mode

variable {c : Char} {cs : List Char}

theorem run_cons (mode : Mode) (c : Char) (cs : List Char) :
    mode.run (c :: cs) = (mode.step c).1.run cs := rfl

theorem found_cons (mode : Mode) (c : Char) (cs : List Char) :
    mode.found (c :: cs) = (mode.step c).2.toList ++ (mode.step c).1.found cs := by
  rw [found]
  cases (mode.step c).2 <;> rfl

/-! ### Blanks -/

theorem start_of_isBlank (dotted : Bool) (blank : Text.isBlank c = true) :
    start dotted c = gap := by
  have noDigit := Text.not_isDigit_of_isBlank blank
  have noWord := Text.not_isWordStart_of_isBlank blank
  unfold start
  rw [if_neg (Text.not_quote_of_class blank (by decide) (by decide)),
    if_neg (Text.ne_of_class blank (by decide)), if_neg (Text.ne_of_class blank (by decide)),
    if_neg (Text.ne_of_class blank (by decide)),
    if_neg (by rw [noDigit]; decide), if_neg (by rw [noWord]; decide)]

theorem step_gap_of_isBlank (blank : Text.isBlank c = true) : gap.step c = (gap, none) := by
  show (start false c, none) = (gap, none)
  rw [start_of_isBlank false blank]

/-- Blanks between tokens are passed over. -/
theorem run_gap_of_blank (blank : cs.all Text.isBlank = true) : gap.run cs = gap := by
  induction cs with
  | nil => rfl
  | cons c rest ih =>
    rw [List.all_cons, Bool.and_eq_true] at blank
    rw [run_cons, step_gap_of_isBlank blank.1, ih blank.2]

/-! ### Literals -/

theorem step_quoted (delimiter : Char) (other : c ≠ delimiter) (noLine : c ≠ '\n')
    (noEscape : c ≠ '\\') : (quoted delimiter).step c = (quoted delimiter, none) := by
  show (if c = delimiter ∨ c = '\n' then (gap, none)
    else if c = '\\' then (escaped delimiter, none) else (quoted delimiter, none)) = _
  rw [if_neg (by rintro (same | same) <;> contradiction), if_neg noEscape]

theorem inside_ordinary (ordinary : ∀ c ∈ cs, IsOrdinary c) :
    (quoted '"').run cs = quoted '"' ∧ (quoted '"').found cs = [] := by
  induction cs with
  | nil => exact ⟨rfl, rfl⟩
  | cons c rest ih =>
    obtain ⟨noQuote, noEscape, noLine⟩ := ordinary c List.mem_cons_self
    rw [run_cons, found_cons, step_quoted '"' noQuote noLine noEscape]
    exact ih fun d mem => ordinary d (List.mem_cons_of_mem _ mem)

/-- The inside of an interpreted literal never leaves it, and nothing in it is found. -/
theorem inside_escape (c : Char) :
    (quoted '"').run (escape c) = quoted '"' ∧ (quoted '"').found (escape c) = [] := by
  rcases escape_shape c with ⟨d, rest, shape, -, ordinary⟩ | ⟨shape, ordinary⟩
  · have opening : (quoted '"').step '\\' = (escaped '"', none) := by decide
    have behind : (escaped '"').step d = (quoted '"', none) := rfl
    rw [shape, run_cons, found_cons, opening, run_cons, found_cons, behind]
    exact inside_ordinary ordinary
  · rw [shape]
    exact inside_ordinary fun d mem => List.mem_singleton.mp mem ▸ ordinary

theorem inside_escapes (cs : List Char) :
    (quoted '"').run (cs.flatMap escape) = quoted '"' ∧
      (quoted '"').found (cs.flatMap escape) = [] := by
  induction cs with
  | nil => exact ⟨rfl, rfl⟩
  | cons c rest ih =>
    obtain ⟨stays, nothing⟩ := inside_escape c
    rw [List.flatMap_cons, run_append, found_append, stays, nothing]
    exact ih

/-- An interpreted literal leads from a gap to a gap. -/
theorem run_quoteChars (cs : List Char) : gap.run (quoteChars cs) = gap := by
  have opening : gap.step '"' = (quoted '"', none) := by decide
  unfold quoteChars
  rw [run_cons, opening, run_append, (inside_escapes cs).1]
  rfl

theorem found_quoteChars (cs : List Char) : gap.found (quoteChars cs) = [] := by
  have opening : gap.step '"' = (quoted '"', none) := by decide
  unfold quoteChars
  rw [found_cons, opening, found_append, (inside_escapes cs).1, (inside_escapes cs).2]
  rfl

/-! ### Names and numbers -/

theorem start_of_isWordStart (dotted : Bool) (word : Text.isWordStart c = true) :
    start dotted c = name [c] (!dotted) := by
  have noDigit := Text.not_isDigit_of_isWordStart word
  unfold start
  rw [if_neg (Text.not_quote_of_class word (by decide) (by decide)),
    if_neg (Text.ne_of_class word (by decide)), if_neg (Text.ne_of_class word (by decide)),
    if_neg (Text.ne_of_class word (by decide)),
    if_neg (by rw [noDigit]; decide), if_pos word]

theorem start_of_isDigit (dotted : Bool) (digit : Text.isDigit c = true) :
    start dotted c = number false := by
  unfold start
  rw [if_neg (Text.not_quote_of_class digit (by decide) (by decide)),
    if_neg (Text.ne_of_class digit (by decide)), if_neg (Text.ne_of_class digit (by decide)),
    if_neg (Text.ne_of_class digit (by decide)), if_pos digit]

theorem step_name (letters : List Char) (base : Bool) (word : Text.isWordPart c = true) :
    (name letters base).step c = (name (c :: letters) base, none) :=
  if_pos word

theorem step_name_dot (letters : List Char) (base : Bool) :
    (name letters base).step '.' = (dot (if base then some letters.reverse else none), none) := by
  have noWord : Text.isWordPart '.' = false := by decide
  simp [step, noWord]

/-- Inside a name the scanner goes on to the name's end. -/
theorem run_name (letters : List Char) (base : Bool) (word : cs.all Text.isWordPart = true) :
    (name letters base).run cs = name (cs.reverse ++ letters) base := by
  induction cs generalizing letters with
  | nil => rfl
  | cons c rest ih =>
    rw [List.all_cons, Bool.and_eq_true] at word
    rw [run_cons, step_name letters base word.1, ih _ word.2, List.reverse_cons,
      List.append_assoc]
    rfl

theorem found_name (letters : List Char) (base : Bool) (word : cs.all Text.isWordPart = true) :
    (name letters base).found cs = [] := by
  induction cs generalizing letters with
  | nil => rfl
  | cons c rest ih =>
    rw [List.all_cons, Bool.and_eq_true] at word
    rw [found_cons, step_name letters base word.1, ih _ word.2]
    rfl

/-- A name that starts in a gap ends as that name. -/
theorem run_gap_identifier (word : Text.isIdentifierChars cs = true) :
    gap.run cs = name cs.reverse true ∧ gap.found cs = [] := by
  cases cs with
  | nil => exact absurd word (by decide)
  | cons c rest =>
    rw [Text.isIdentifierChars, Bool.and_eq_true] at word
    have here : gap.step c = (name [c] true, none) := by
      show (start false c, none) = _
      rw [start_of_isWordStart false word.1]
      rfl
    rw [run_cons, found_cons, here, run_name _ _ word.2, found_name _ _ word.2,
      List.reverse_cons]
    exact ⟨rfl, rfl⟩

/-- A name behind a dot ends as that name, and the name in front of the dot is found. -/
theorem run_dot_identifier (base : Option (List Char))
    (word : Text.isIdentifierChars cs = true) :
    (dot base).run cs = name cs.reverse false ∧ (dot base).found cs = base.toList := by
  cases cs with
  | nil => exact absurd word (by decide)
  | cons c rest =>
    rw [Text.isIdentifierChars, Bool.and_eq_true] at word
    have here : (dot base).step c = (name [c] false, base) := by
      show (start true c, if Text.isWordStart c = true then base else none) = _
      rw [start_of_isWordStart true word.1, if_pos word.1]
      rfl
    rw [run_cons, found_cons, here, run_name _ _ word.2, found_name _ _ word.2,
      List.reverse_cons, List.append_nil]
    exact ⟨rfl, rfl⟩

/-- A name that a package qualifies: the package is what is found. -/
theorem run_qualified {package member : List Char}
    (qualifier : Text.isIdentifierChars package = true)
    (word : Text.isIdentifierChars member = true) :
    gap.run (package ++ '.' :: member) = name member.reverse false ∧
      gap.found (package ++ '.' :: member) = [package] := by
  obtain ⟨ends, nothing⟩ := run_gap_identifier qualifier
  have behind : (name package.reverse true).step '.' = (dot (some package), none) := by
    rw [step_name_dot, if_pos rfl, List.reverse_reverse]
  obtain ⟨last, base⟩ := run_dot_identifier (some package) word
  rw [run_append, found_append, ends, nothing, run_cons, found_cons, behind, last, base]
  exact ⟨rfl, rfl⟩

/-! ### Indentation -/

/-- Only quotes delimit literals. -/
def Proper : Mode → Prop
  | quoted delimiter | escaped delimiter => delimiter = '"' ∨ delimiter = '\x27'
  | _ => True

/-- Where a line can start: between tokens, or inside a literal or a comment that goes over
several lines. Spaces and tabs do not matter there. -/
def Roomy : Mode → Prop
  | gap | raw | blockComment false => True
  | quoted delimiter => delimiter = '"' ∨ delimiter = '\x27'
  | _ => False

theorem proper_start (dotted : Bool) (c : Char) : (start dotted c).Proper := by
  unfold start
  split
  · rename_i quote
    exact quote
  · repeat' split
    all_goals trivial

theorem Proper.step {mode : Mode} (proper : mode.Proper) (c : Char) :
    (mode.step c).1.Proper := by
  cases mode with
  | gap => exact proper_start false c
  | slash =>
    unfold Mode.step
    simp only
    repeat' split
    all_goals first | exact proper_start _ c | trivial
  | dot base => exact proper_start true c
  | name letters base =>
    unfold Mode.step
    simp only
    repeat' split
    all_goals first | exact proper_start _ c | trivial
  | number dotted =>
    unfold Mode.step
    simp only
    repeat' split
    all_goals first | exact proper_start _ c | trivial
  | quoted delimiter =>
    unfold Mode.step
    simp only
    repeat' split
    all_goals first | exact proper | trivial
  | escaped delimiter => exact proper
  | raw =>
    unfold Mode.step
    simp only
    split <;> trivial
  | lineComment =>
    unfold Mode.step
    simp only
    split <;> trivial
  | blockComment star =>
    unfold Mode.step
    simp only
    split <;> trivial

theorem Proper.run {mode : Mode} (proper : mode.Proper) (cs : List Char) :
    (mode.run cs).Proper := by
  induction cs generalizing mode with
  | nil => exact proper
  | cons c rest ih => exact ih (proper.step c)

theorem proper_run_gap (cs : List Char) : (gap.run cs).Proper :=
  have proper : gap.Proper := trivial
  proper.run cs

theorem roomy_gap : gap.Roomy := trivial

theorem Roomy.proper {mode : Mode} (roomy : mode.Roomy) : mode.Proper := by
  cases mode <;> first | exact roomy | trivial

/-- Behind a newline the scanner is where a line can start. -/
theorem Proper.roomy_newline {mode : Mode} (proper : mode.Proper) :
    (mode.step '\n').1.Roomy := by
  have newline : ∀ dotted, start dotted '\n' = gap := by decide
  have noWord : Text.isWordPart '\n' = false := by decide
  have noNumber : Text.isLetterOrNumber '\n' = false := by decide
  cases mode with
  | gap => trivial
  | dot base => trivial
  | slash => trivial
  | name letters base => simp [Mode.step, noWord, newline, Roomy]
  | number dotted => simp [Mode.step, noNumber, newline, Roomy]
  | quoted delimiter => simp [Mode.step, Roomy]
  | escaped delimiter => exact proper
  | raw => trivial
  | lineComment => trivial
  | blockComment star => cases star <;> trivial

/-- Spaces and tabs change nothing where a line can start. -/
theorem Roomy.step {mode : Mode} (roomy : mode.Roomy) (space : c = ' ' ∨ c = '\t') :
    mode.step c = (mode, none) := by
  cases mode with
  | gap => rcases space with rfl | rfl <;> rfl
  | raw => rcases space with rfl | rfl <;> rfl
  | blockComment star =>
    cases star with
    | false => rcases space with rfl | rfl <;> rfl
    | true => exact roomy.elim
  | quoted delimiter => rcases roomy with rfl | rfl <;> rcases space with rfl | rfl <;> rfl
  | slash | dot base | name letters base | number dotted | escaped delimiter | lineComment =>
    exact roomy.elim

theorem Roomy.run {mode : Mode} (roomy : mode.Roomy) (spaces : ∀ c ∈ cs, c = ' ' ∨ c = '\t') :
    mode.run cs = mode ∧ mode.found cs = [] := by
  induction cs with
  | nil => exact ⟨rfl, rfl⟩
  | cons c rest ih =>
    have here := roomy.step (spaces c List.mem_cons_self)
    rw [run_cons, found_cons, here]
    exact ih fun d mem => spaces d (List.mem_cons_of_mem _ mem)

variable {indentation : List Char} {mode : Mode}

theorem Roomy.run_indentLine (roomy : mode.Roomy)
    (spaces : ∀ c ∈ indentation, c = ' ' ∨ c = '\t') (line : List Char) :
    mode.run (Text.indentLine indentation line) = mode.run line ∧
      mode.found (Text.indentLine indentation line) = mode.found line := by
  unfold Text.indentLine
  split
  · exact ⟨rfl, rfl⟩
  · obtain ⟨stays, nothing⟩ := roomy.run spaces
    rw [run_append, found_append, stays, nothing]
    exact ⟨rfl, rfl⟩

/-- Indenting a text changes neither where the scanner ends nor what it finds. -/
theorem Roomy.run_indentChars (roomy : mode.Roomy)
    (spaces : ∀ c ∈ indentation, c = ' ' ∨ c = '\t') (cs : List Char) :
    mode.run (Text.indentChars indentation cs) = mode.run cs ∧
      mode.found (Text.indentChars indentation cs) = mode.found cs := by
  induction cs using Text.lines_induction generalizing mode with
  | nil => exact ⟨rfl, rfl⟩
  | last line plain _ =>
    rw [Text.indentChars_of_line plain]
    exact roomy.run_indentLine spaces line
  | first line rest plain ih =>
    obtain ⟨ends, finds⟩ := roomy.run_indentLine spaces line
    have next := (roomy.proper.run line).roomy_newline
    obtain ⟨ends', finds'⟩ := ih next
    rw [Text.indentChars_line plain, run_append, found_append, ends, finds, run_cons,
      found_cons, ends', finds', run_append, found_append, run_cons, found_cons]
    exact ⟨rfl, rfl⟩

end Blockwork.Source.Mode
