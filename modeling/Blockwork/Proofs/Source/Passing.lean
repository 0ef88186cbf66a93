import Blockwork.Proofs.Source.Scanning

/-!
# What the scanner finds in composed code

Generated code is put together from templates, names, literals and code that users enter.
`Passes` says of a piece of code that the scanner goes through it from one gap between tokens to
the next and finds only names that are allowed. Pieces that pass can be put one behind the other
(`Passes.append`) and indented (`Passes.indent`). Values pass when what closes them stands behind
them (`IsValue`), and code of the user's when the end of its line does (`IsClosed`).
`qualifiers_composed` says what the scanner finds in texts put together, whatever they are.
-/

namespace Blockwork.Source

open Mode

variable {allowed more : String → Prop} {code other rest : String}

/-- The scanner goes through the code from a gap to a gap, and what it finds is allowed. -/
structure Passes (allowed : String → Prop) (code : String) : Prop where
  ends : gap.run code.toList = gap
  finds : ∀ name ∈ gap.found code.toList, allowed (String.ofList name)

/-- The mark ends a name and starts no token that goes on behind it. -/
def EndsName (mark : Char) : Prop :=
  Text.isWordPart mark = false ∧ mark ≠ '.' ∧ start false mark = gap

instance (mark : Char) : Decidable (EndsName mark) :=
  inferInstanceAs (Decidable (_ ∧ _ ∧ _))

theorem EndsName.run {mark : Char} (closes : EndsName mark) (letters : List Char)
    (base : Bool) : (Mode.name letters base).run [mark] = gap ∧
      (Mode.name letters base).found [mark] = [] := by
  obtain ⟨noWord, noDot, noToken⟩ := closes
  simp [Mode.run, found, step, noWord, noDot, noToken]

namespace Passes

theorem empty : Passes allowed "" := ⟨rfl, nofun⟩

theorem mono (passes : Passes allowed code) (imp : ∀ name, allowed name → more name) :
    Passes more code :=
  ⟨passes.ends, fun name mem => imp _ (passes.finds name mem)⟩

theorem append (first : Passes allowed code) (second : Passes allowed other) :
    Passes allowed (code ++ other) := by
  refine ⟨?_, fun name mem => ?_⟩
  · rw [String.toList_append, run_append, first.ends, second.ends]
  · rw [String.toList_append, found_append, first.ends] at mem
    rcases List.mem_append.mp mem with here | there
    · exact first.finds name here
    · exact second.finds name there

theorem join {codes : List String} (all : ∀ code ∈ codes, Passes allowed code) :
    Passes allowed (String.join codes) := by
  induction codes with
  | nil => exact empty
  | cons code rest ih =>
    rw [String.join_cons]
    refine (all code List.mem_cons_self).append (ih fun other mem => ?_)
    exact all other (List.mem_cons_of_mem _ mem)

/-- A fixed text, with the names that the scanner finds in it. -/
theorem fixed (names : List String) (ok : ∀ name ∈ names, allowed name) {cs : List Char}
    (letters : code = String.ofList cs)
    (scanned : gap.run cs = gap ∧ (gap.found cs).map String.ofList = names) :
    Passes allowed code := by
  have same : code.toList = cs := by rw [letters, String.toList_ofList]
  refine ⟨same ▸ scanned.1, fun name mem => ok _ ?_⟩
  rw [same] at mem
  rw [← scanned.2]
  exact List.mem_map_of_mem mem

/-- A fixed text in which nothing is found. -/
theorem plain {cs : List Char} (letters : code = String.ofList cs)
    (scanned : gap.run cs = gap ∧ gap.found cs = []) : Passes allowed code :=
  fixed [] nofun letters ⟨scanned.1, by rw [scanned.2]; rfl⟩

theorem quote (text : String) : Passes allowed (quote text) := by
  refine ⟨?_, fun name mem => ?_⟩
  · rw [toList_quote, run_quoteChars]
  · rw [toList_quote, found_quoteChars] at mem
    exact absurd mem List.not_mem_nil

theorem spaces (blank : ∀ c ∈ code.toList, c = ' ' ∨ c = '\t') : Passes allowed code := by
  obtain ⟨stays, nothing⟩ := roomy_gap.run blank
  refine ⟨stays, fun name mem => ?_⟩
  rw [nothing] at mem
  exact absurd mem List.not_mem_nil

theorem indent {indentation : String} (passes : Passes allowed code)
    (blank : ∀ c ∈ indentation.toList, c = ' ' ∨ c = '\t') :
    Passes allowed (Text.indent indentation code) := by
  obtain ⟨ends, finds⟩ := roomy_gap.run_indentChars blank code.toList
  refine ⟨?_, fun name mem => ?_⟩
  · rw [Text.toList_indent_eq, ends, passes.ends]
  · rw [Text.toList_indent_eq, finds] at mem
    exact passes.finds name mem

/-- A name in front of a mark that ends it. -/
theorem name_before {name : String} (word : Text.isIdentifier name = true) (mark : Char)
    (only : rest.toList = [mark]) (closes : EndsName mark) : Passes allowed (name ++ rest) := by
  obtain ⟨ends, nothing⟩ := run_gap_identifier word
  obtain ⟨closed, more⟩ := closes.run name.toList.reverse true
  rw [← only] at closed more
  refine ⟨?_, fun found mem => ?_⟩
  · rw [String.toList_append, run_append, ends, closed]
  · rw [String.toList_append, found_append, ends, nothing, more] at mem
    exact absurd mem List.not_mem_nil

/-- A member of a package in front of a mark that ends its name. -/
theorem qualified_before {package member : String}
    (qualifier : Text.isIdentifier package = true) (word : Text.isIdentifier member = true)
    (ok : allowed package) (mark : Char) (only : rest.toList = [mark])
    (closes : EndsName mark) : Passes allowed (s!"{package}.{member}" ++ rest) := by
  obtain ⟨ends, one⟩ := run_qualified qualifier word
  obtain ⟨closed, more⟩ := closes.run member.toList.reverse false
  rw [← only] at closed more
  have written : (s!"{package}.{member}").toList = package.toList ++ '.' :: member.toList := by
    simp [toString]
  refine ⟨?_, fun found mem => ?_⟩
  · rw [String.toList_append, run_append, written, ends, closed]
  · rw [String.toList_append, found_append, written, ends, one, more, List.append_nil,
      List.mem_singleton] at mem
    rw [mem, String.ofList_toList]
    exact ok

end Passes

/-! ### Values -/

/-- The marks that stand behind values. -/
def closers : List Char := [',', ')', '}']

/-- The code passes as soon as a mark that closes it stands behind it. -/
def IsValue (allowed : String → Prop) (code : String) : Prop :=
  ∀ c ∈ closers, Passes allowed (code ++ String.singleton c)

theorem Passes.isValue (passes : Passes allowed code) : IsValue allowed code := by
  have closing : ∀ c ∈ closers, gap.step c = (gap, none) := Text.forall_mem_of_all (by decide)
  intro c mem
  refine passes.append ⟨?_, fun name found => ?_⟩
  · rw [String.toList_singleton, run_cons, closing c mem]
    rfl
  · rw [String.toList_singleton, found_cons, closing c mem] at found
    exact absurd found List.not_mem_nil

namespace IsValue

theorem mono (value : IsValue allowed code) (imp : ∀ name, allowed name → more name) :
    IsValue more code :=
  fun c mem => (value c mem).mono imp

/-- A value behind a text that passes. -/
theorem behind (value : IsValue allowed code) (passes : Passes allowed other) :
    IsValue allowed (other ++ code) := by
  intro c mem
  rw [String.append_assoc]
  exact passes.append (value c mem)

/-- A value in front of a text that closes it. -/
theorem before (value : IsValue allowed code) {c : Char} (closer : c ∈ closers)
    (starts : rest = String.singleton c ++ other) (passes : Passes allowed other) :
    Passes allowed (code ++ rest) := by
  rw [starts, ← String.append_assoc]
  exact (value c closer).append passes

/-- Values with commas between them make a value. -/
theorem joinWith {codes : List String} (all : ∀ code ∈ codes, IsValue allowed code) :
    IsValue allowed (Text.joinWith ", " codes) := by
  induction codes with
  | nil => exact Passes.empty.isValue
  | cons code others ih =>
    cases others with
    | nil => exact all code List.mem_cons_self
    | cons next last =>
      have comma : ", " = String.singleton ',' ++ " " := by decide
      have space : Passes allowed " " := Passes.plain rfl (by decide)
      have first := (all code List.mem_cons_self).before (by decide) comma space
      rw [Text.joinWith]
      · refine (ih fun other mem => ?_).behind first
        exact all other (List.mem_cons_of_mem _ mem)
      · exact nofun

/-- What the scanner finds in a value is allowed. -/
theorem finds (value : IsValue allowed code) :
    ∀ name ∈ gap.found code.toList, allowed (String.ofList name) := by
  intro name mem
  refine (value ',' (by decide)).finds name ?_
  rw [String.toList_append, found_append]
  exact List.mem_append_left _ mem

end IsValue

/-- A word on its own is a value, in which nothing is found. -/
theorem isValue_word (code : String) (word : Text.isIdentifier code = true) :
    IsValue allowed code := by
  have ends : ∀ c ∈ closers, EndsName c := Text.forall_mem_of_all (by decide)
  exact fun c mem => Passes.name_before word c (String.toList_singleton c) (ends c mem)

/-! ### Numbers -/

/-- Where the scanner can be in the text of a number. -/
def Mode.IsNumeric : Mode → Prop
  | gap | number _ | dot none => True
  | _ => False

theorem Mode.IsNumeric.step {mode : Mode} (numeric : mode.IsNumeric) {c : Char}
    (mark : Text.isNumberMark c = true) :
    (mode.step c).1.IsNumeric ∧ (mode.step c).2 = none := by
  have begins : ∀ dotted, (start dotted c).IsNumeric := by
    intro dotted
    rcases Text.isNumberMark_iff.mp mark with digit | rfl | rfl
    · rw [start_of_isDigit dotted digit]
      trivial
    · cases dotted <;> trivial
    · cases dotted <;> trivial
  cases mode with
  | gap => exact ⟨begins false, rfl⟩
  | number dotted =>
    unfold Mode.step
    simp only
    split
    · exact ⟨trivial, rfl⟩
    · split
      · exact ⟨trivial, rfl⟩
      · exact ⟨begins dotted, rfl⟩
  | dot base =>
    cases base with
    | none => exact ⟨begins true, ite_self none⟩
    | some name => exact numeric.elim
  | slash | name letters base | quoted delimiter | escaped delimiter | raw | lineComment
  | blockComment star => exact numeric.elim

theorem Mode.IsNumeric.run {mode : Mode} (numeric : mode.IsNumeric) {cs : List Char}
    (marks : ∀ c ∈ cs, Text.isNumberMark c = true) :
    (mode.run cs).IsNumeric ∧ mode.found cs = [] := by
  induction cs generalizing mode with
  | nil => exact ⟨numeric, rfl⟩
  | cons c rest ih =>
    obtain ⟨next, nothing⟩ := numeric.step (marks c List.mem_cons_self)
    rw [run_cons, found_cons, nothing]
    exact ih next fun d mem => marks d (List.mem_cons_of_mem _ mem)

/-- The text of a number is a value, in which nothing is found. -/
theorem isValue_of_numberMarks (marks : ∀ c ∈ code.toList, Text.isNumberMark c = true) :
    IsValue allowed code := by
  obtain ⟨ends, nothing⟩ := Mode.IsNumeric.run (show gap.IsNumeric from trivial) marks
  have closing : ∀ c ∈ closers, (gap.run code.toList).step c = (gap, none) := by
    generalize gap.run code.toList = mode at ends
    cases mode with
    | gap => exact Text.forall_mem_of_all (by decide)
    | number dotted => cases dotted <;> exact Text.forall_mem_of_all (by decide)
    | dot base =>
      cases base with
      | none => exact Text.forall_mem_of_all (by decide)
      | some name => exact ends.elim
    | slash | name letters base | quoted delimiter | escaped delimiter | raw | lineComment
    | blockComment star => exact ends.elim
  intro c mem
  refine ⟨?_, fun name found => ?_⟩
  · rw [String.toList_append, run_append, String.toList_singleton, run_cons, closing c mem]
    rfl
  · rw [String.toList_append, found_append, nothing, String.toList_singleton, found_cons,
      closing c mem] at found
    exact absurd found List.not_mem_nil

/-! ### Code of the user's -/

/-- Inside a literal or a block comment. -/
def Mode.isInside : Mode → Bool
  | quoted _ | escaped _ | raw | blockComment _ => true
  | gap | slash | dot _ | name _ _ | number _ | lineComment => false

/-- Every literal and every block comment of the code is closed in it. -/
def IsClosed (code : String) : Prop :=
  (gap.run code.toList).isInside = false

instance (code : String) : Decidable (IsClosed code) :=
  inferInstanceAs (Decidable (_ = _))

theorem mem_qualifiers {name : String} :
    name ∈ qualifiers code ↔ ∃ found ∈ gap.found code.toList, String.ofList found = name := by
  unfold qualifiers
  rw [NameSet.mem_ofList, List.mem_map]

/-- The end of a line leads out of the mode. -/
def Mode.LineEnds : Mode → Prop
  | raw | blockComment _ | escaped _ => False
  | _ => True

theorem Mode.LineEnds.run_newline {mode : Mode} (lineEnds : mode.LineEnds) :
    mode.run ['\n'] = gap ∧ mode.found ['\n'] = [] := by
  cases mode with
  | gap | slash | lineComment => exact ⟨rfl, rfl⟩
  | dot base | name letters base | number dotted => exact ⟨rfl, rfl⟩
  | quoted delimiter => refine ⟨?_, ?_⟩ <;> simp [Mode.run, found, step]
  | escaped delimiter | raw | blockComment star => exact lineEnds.elim

theorem lineEnds_of_outside {mode : Mode} (outside : mode.isInside = false) : mode.LineEnds := by
  cases mode with
  | gap | slash | dot base | name letters base | number dotted | lineComment => trivial
  | quoted delimiter | escaped delimiter | raw | blockComment star => exact nomatch outside

/-- A closed line passes with its newline. -/
theorem IsClosed.passes_newline (closed : IsClosed code)
    (ok : ∀ name ∈ qualifiers code, allowed name) : Passes allowed (code ++ "\n") := by
  obtain ⟨ends, nothing⟩ := (lineEnds_of_outside closed).run_newline
  refine ⟨?_, fun name mem => ?_⟩
  · rw [String.toList_append, run_append]
    exact ends
  · rw [String.toList_append, found_append] at mem
    rcases List.mem_append.mp mem with here | there
    · exact ok _ (mem_qualifiers.mpr ⟨name, here, rfl⟩)
    · exact absurd (nothing ▸ there) List.not_mem_nil

/-! A text that is closed may be open without the blanks at its end: a newline among them may
have closed a literal, or a backslash may have stood in front of one. What is still open then,
the end of the next line closes. -/

/-- Only raw literals and block comments go on behind the ends of lines. -/
def Mode.EndsWithLine : Mode → Prop
  | raw | blockComment _ => False
  | _ => True

theorem step_raw_of_isBlank {c : Char} (blank : Text.isBlank c = true) :
    raw.step c = (raw, none) := by
  show (if c = '\x60' then gap else raw, none) = _
  rw [if_neg (Text.ne_of_class blank (by decide))]

theorem step_blockComment_of_isBlank {c : Char} (star : Bool) (blank : Text.isBlank c = true) :
    (blockComment star).step c = (blockComment false, none) := by
  have noSlash : decide (c = '/') = false :=
    decide_eq_false (Text.ne_of_class blank (by decide))
  have noStar : decide (c = '*') = false :=
    decide_eq_false (Text.ne_of_class blank (by decide))
  simp [step, noSlash, noStar]

theorem isInside_run_of_blank {mode : Mode} {cs : List Char}
    (goesOn : ¬ mode.EndsWithLine) (blank : cs.all Text.isBlank = true) :
    (mode.run cs).isInside = true := by
  induction cs generalizing mode with
  | nil =>
    cases mode with
    | raw | blockComment star => rfl
    | gap | slash | dot base | name letters base | number dotted | quoted delimiter
    | escaped delimiter | lineComment => exact absurd trivial goesOn
  | cons c rest ih =>
    rw [List.all_cons, Bool.and_eq_true] at blank
    rw [run_cons]
    refine ih ?_ blank.2
    cases mode with
    | raw =>
      rw [step_raw_of_isBlank blank.1]
      exact goesOn
    | blockComment star =>
      rw [step_blockComment_of_isBlank star blank.1]
      exact goesOn
    | gap | slash | dot base | name letters base | number dotted | quoted delimiter
    | escaped delimiter | lineComment => exact absurd trivial goesOn

/-- Where the scanner ends in a closed text without the blanks around it. -/
theorem IsClosed.run_trim (closed : IsClosed code) :
    ∃ mode : Mode, gap.run (Text.trim code).toList = mode ∧ mode.EndsWithLine ∧ mode.Proper := by
  rw [Text.toList_trim]
  unfold IsClosed at closed
  generalize code.toList = cs at closed ⊢
  unfold Text.trimWhere
  obtain ⟨trail, blankTrail, parts⟩ :=
    Text.dropEndWhile_append_run Text.isBlank (cs.dropWhile Text.isBlank)
  have blankLead : (cs.takeWhile Text.isBlank).all Text.isBlank = true := List.all_takeWhile
  have whole : cs = cs.takeWhile Text.isBlank ++
      (Text.dropEndWhile Text.isBlank (cs.dropWhile Text.isBlank) ++ trail) := by
    rw [parts, List.takeWhile_append_dropWhile]
  rw [whole, run_append, run_gap_of_blank blankLead, run_append] at closed
  refine ⟨_, rfl, Classical.byContradiction ?_, proper_run_gap _⟩
  intro goesOn
  rw [isInside_run_of_blank goesOn blankTrail] at closed
  exact nomatch closed

/-- Behind a text that its line ends stands another line of the template. -/
theorem run_newline_of_endsWithLine {mode : Mode} (ended : mode.EndsWithLine)
    (proper : mode.Proper) :
    (mode.run ['\n'] = gap ∨ ∃ quote, (quote = '"' ∨ quote = '\x27') ∧
      mode.run ['\n'] = quoted quote) ∧ mode.found ['\n'] = [] := by
  have out : mode.LineEnds → (mode.run ['\n'] = gap ∨ ∃ quote, (quote = '"' ∨ quote = '\x27') ∧
      mode.run ['\n'] = quoted quote) ∧ mode.found ['\n'] = [] :=
    fun lineEnds => lineEnds.run_newline.imp .inl id
  cases mode with
  | escaped delimiter => exact ⟨.inr ⟨delimiter, proper, rfl⟩, rfl⟩
  | gap | slash | dot base | name letters base | number dotted | quoted delimiter
  | lineComment => exact out trivial
  | raw | blockComment star => exact ended.elim

/-- A handler's text, closed but trimmed, passes together with the line behind it. -/
theorem IsClosed.passes_trim_return (closed : IsClosed code) {indentation : String}
    (blank : ∀ c ∈ indentation.toList, c = ' ' ∨ c = '\t')
    (ok : ∀ name ∈ qualifiers (Text.trim code), allowed name) :
    Passes allowed (Text.trim code ++ "\n" ++ (indentation ++ "return\n")) := by
  obtain ⟨mode, ran, ended, proper⟩ := closed.run_trim
  obtain ⟨next, nothing⟩ := run_newline_of_endsWithLine ended proper
  have behind : (mode.run ['\n']).run (indentation.toList ++ "return\n".toList) = gap ∧
      (mode.run ['\n']).found (indentation.toList ++ "return\n".toList) = [] := by
    rcases next with next | ⟨quote, isQuote, next⟩
    · obtain ⟨stays, none⟩ := roomy_gap.run blank
      rw [next, run_append, found_append, stays, none]
      decide
    · have roomy : (quoted quote).Roomy := isQuote
      obtain ⟨stays, none⟩ := roomy.run blank
      rw [next, run_append, found_append, stays, none]
      rcases isQuote with rfl | rfl <;> decide
  refine ⟨?_, fun name mem => ?_⟩
  · simp only [String.toList_append, run_append, ran] at behind ⊢
    exact behind.1
  · have newline : "\n".toList = ['\n'] := rfl
    rw [String.toList_append, String.toList_append, String.toList_append, newline,
      found_append, found_append, ran, nothing, List.append_nil, run_append, ran, behind.2,
      List.append_nil] at mem
    exact ok _ (mem_qualifiers.mpr ⟨name, mem, rfl⟩)

/-- A handler's text, closed but trimmed, passes with the end of the call that it stands in. -/
theorem IsClosed.passes_trim_call (closed : IsClosed code)
    (ok : ∀ name ∈ qualifiers (Text.trim code), allowed name) :
    Passes allowed (Text.trim code ++ ")\n") := by
  obtain ⟨mode, ran, ended, proper⟩ := closed.run_trim
  have behind : mode.run [')', '\n'] = gap ∧ mode.found [')', '\n'] = [] := by
    cases mode with
    | gap | slash | lineComment => exact ⟨rfl, rfl⟩
    | dot base | name letters base | number dotted => exact ⟨rfl, rfl⟩
    | quoted delimiter => rcases proper with rfl | rfl <;> exact ⟨rfl, rfl⟩
    | escaped delimiter => rcases proper with rfl | rfl <;> exact ⟨rfl, rfl⟩
    | raw | blockComment star => exact ended.elim
  have call : ")\n".toList = [')', '\n'] := rfl
  refine ⟨?_, fun name mem => ?_⟩
  · rw [String.toList_append, run_append, ran, call, behind.1]
  · rw [String.toList_append, found_append, ran, call, behind.2, List.append_nil] at mem
    exact ok _ (mem_qualifiers.mpr ⟨name, mem, rfl⟩)

/-! ### Composed texts -/

theorem qualifiers_line {front : String} (lineEnds : (gap.run front.toList).LineEnds)
    (rest : String) :
    qualifiers (front ++ "\n" ++ rest) = (qualifiers front).union (qualifiers rest) := by
  obtain ⟨ends, nothing⟩ := lineEnds.run_newline
  have newline : "\n".toList = ['\n'] := rfl
  have split : gap.found (front ++ "\n" ++ rest).toList =
      gap.found front.toList ++ gap.found rest.toList := by
    rw [String.toList_append, String.toList_append, newline, found_append, found_append,
      run_append, nothing, ends, List.append_nil]
  apply NameSet.ext_mem
  intro name
  rw [NameSet.mem_union, mem_qualifiers, mem_qualifiers, mem_qualifiers, split]
  simp only [List.mem_append, or_and_right, exists_or]

theorem qualifiers_quote (text rest : String) :
    qualifiers (quote text ++ rest) = qualifiers rest := by
  unfold qualifiers
  rw [String.toList_append, toList_quote, found_append, run_quoteChars, found_quoteChars]
  rfl

theorem qualifiers_indent {indentation : String}
    (blank : ∀ c ∈ indentation.toList, c = ' ' ∨ c = '\t') (code : String) :
    qualifiers (Text.indent indentation code) = qualifiers code := by
  unfold qualifiers
  rw [Text.toList_indent_eq, (roomy_gap.run_indentChars blank code.toList).2]

/-- **Scanning in pieces.** What is found in lines of code is what is found in each of them,
unless the line before ends inside a raw literal or a block comment, or its end is escaped in
another literal. A literal in front adds nothing, and indentation never changes what is found. -/
theorem qualifiers_composed (front rest text : String) {indentation : String}
    (blank : ∀ c ∈ indentation.toList, c = ' ' ∨ c = '\t') :
    ((gap.run front.toList).LineEnds →
        qualifiers (front ++ "\n" ++ rest) = (qualifiers front).union (qualifiers rest)) ∧
      qualifiers (quote text ++ rest) = qualifiers rest ∧
      qualifiers (Text.indent indentation front) = qualifiers front :=
  ⟨fun lineEnds => qualifiers_line lineEnds rest, qualifiers_quote text rest,
    qualifiers_indent blank front⟩

/-- Two lines of which the first ends inside a literal. -/
theorem qualifiers_composed_open_literal :
    (∀ c ∈ "\t".toList, c = ' ' ∨ c = '\t') ∧ (gap.run "a.B(\"x.Y".toList).LineEnds ∧
      qualifiers ("a.B(\"x.Y" ++ "\n" ++ "c.D") =
        (qualifiers "a.B(\"x.Y").union (qualifiers "c.D") ∧
      qualifiers (quote "\"x.Y" ++ "c.D") = qualifiers "c.D" ∧
      qualifiers (Text.indent "\t" "a.B(\"x.Y") = qualifiers "a.B(\"x.Y" := by
  have blank : ∀ c ∈ "\t".toList, c = ' ' ∨ c = '\t' := Text.forall_mem_of_all (by decide)
  have inside : gap.run "a.B(\"x.Y".toList = quoted '"' := by decide +kernel
  have lineEnds : (gap.run "a.B(\"x.Y".toList).LineEnds := by
    rw [inside]
    trivial
  obtain ⟨lines, literal, indented⟩ := qualifiers_composed "a.B(\"x.Y" "c.D" "\"x.Y" blank
  exact ⟨blank, lineEnds, lines lineEnds, literal, indented⟩

end Blockwork.Source
