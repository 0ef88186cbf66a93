import Blockwork.Text.Lines

/-!
# Texts line by line

A text is its first line and the lines after it. `lines_induction` is the induction this
gives, and `indentChars` is the indentation of a text as a function of its characters, which
works on one line after the other (`indentChars_line`) and leaves blank texts as they are. A
text that ends with its last line may be indented apart from what follows
(`indent_append`).
-/

namespace Blockwork.Text

variable {indentation line rest cs : List Char}

/-! ### Induction over lines -/

theorem lines_of_line (plain : '\n' ∉ line) (present : line ≠ []) : lines line = [line] := by
  induction line with
  | nil => exact absurd rfl present
  | cons c cs ih =>
    have here : c ≠ '\n' := fun same => plain (same ▸ List.mem_cons_self)
    have there : '\n' ∉ cs := fun mem => plain (List.mem_cons_of_mem _ mem)
    rw [lines, if_neg here]
    cases cs with
    | nil => rfl
    | cons d ds => rw [ih there (List.cons_ne_nil _ _)]

theorem lines_append_newline (plain : '\n' ∉ line) :
    lines (line ++ '\n' :: rest) = (line ++ ['\n']) :: lines rest := by
  induction line with
  | nil => rw [List.nil_append, lines, if_pos rfl, List.nil_append]
  | cons c cs ih =>
    have here : c ≠ '\n' := fun same => plain (same ▸ List.mem_cons_self)
    have there : '\n' ∉ cs := fun mem => plain (List.mem_cons_of_mem _ mem)
    rw [List.cons_append, lines, if_neg here, ih there]
    rfl

/-- What holds of the empty text and of a last line, and passes from the lines after the first
to the whole, holds of every text. -/
theorem lines_induction {P : List Char → Prop} (nil : P [])
    (last : ∀ line, '\n' ∉ line → line ≠ [] → P line)
    (first : ∀ line rest, '\n' ∉ line → P rest → P (line ++ '\n' :: rest))
    (cs : List Char) : P cs := by
  by_cases newline : '\n' ∈ cs
  · obtain ⟨line, rest, rfl, plain⟩ := List.eq_append_cons_of_mem newline
    have : rest.length < (line ++ '\n' :: rest).length := by
      rw [List.length_append, List.length_cons]
      omega
    exact first line rest plain (lines_induction nil last first rest)
  · cases cs with
    | nil => exact nil
    | cons c rest => exact last _ newline (List.cons_ne_nil _ _)
termination_by cs.length

/-! ### Indentation -/

/-- The characters of a text with every line that is not blank indented. -/
def indentChars (indentation cs : List Char) : List Char :=
  (lines cs).flatMap (indentLine indentation)

theorem toList_indent_eq (indentation code : String) :
    (indent indentation code).toList = indentChars indentation.toList code.toList :=
  toList_indent indentation code

theorem indentChars_of_line (plain : '\n' ∉ line) :
    indentChars indentation line = indentLine indentation line := by
  cases line with
  | nil => rfl
  | cons c cs =>
    unfold indentChars
    rw [lines_of_line plain (List.cons_ne_nil _ _), List.flatMap_cons, List.flatMap_nil,
      List.append_nil]

/-- The newline that ends a line does not matter for its indentation. -/
theorem indentLine_append_newline (indentation line : List Char) :
    indentLine indentation (line ++ ['\n']) = indentLine indentation line ++ ['\n'] := by
  have newline : isBlank '\n' = true := by decide
  unfold indentLine
  rw [List.all_append, List.all_cons, newline, List.all_nil, Bool.true_and, Bool.and_true]
  split
  · rfl
  · rw [List.append_assoc]

theorem indentChars_line (plain : '\n' ∉ line) :
    indentChars indentation (line ++ '\n' :: rest) =
      indentLine indentation line ++ '\n' :: indentChars indentation rest := by
  unfold indentChars
  rw [lines_append_newline plain, List.flatMap_cons, indentLine_append_newline,
    List.append_assoc]
  rfl

/-- Indentation leaves no text out and adds none where there is none. -/
theorem isEmpty_indent (indentation code : String) :
    (indent indentation code).isEmpty = code.isEmpty := by
  rw [Bool.eq_iff_iff, String.isEmpty_iff, String.isEmpty_iff, ← String.toList_eq_nil_iff,
    ← String.toList_eq_nil_iff, toList_indent, List.flatMap_eq_nil_iff]
  constructor
  · intro nothing
    rw [← flatten_lines code.toList, List.flatten_eq_nil_iff]
    intro line mem
    have empty := nothing line mem
    unfold indentLine at empty
    split at empty
    · exact empty
    · exact (List.append_eq_nil_iff.mp empty).2
  · intro nothing line mem
    rw [nothing, lines] at mem
    exact absurd mem List.not_mem_nil

/-! ### Complete lines -/

/-- The text is empty or ends with a newline. -/
def IsComplete (cs : List Char) : Prop :=
  cs = [] ∨ cs.getLast? = some '\n'

theorem IsComplete.behind_line (complete : IsComplete (line ++ '\n' :: rest)) :
    IsComplete rest := by
  cases rest with
  | nil => exact .inl rfl
  | cons c cs =>
    refine .inr ?_
    rcases complete with empty | ends
    · exact absurd empty (List.append_ne_nil_of_right_ne_nil _ (List.cons_ne_nil _ _))
    · rwa [List.getLast?_append, List.getLast?_cons_cons, List.getLast?_cons, Option.some_or,
        ← List.getLast?_cons] at ends

theorem isComplete_append_newline : IsComplete (cs ++ ['\n']) :=
  .inr List.getLast?_concat

theorem IsComplete.append (first : IsComplete cs) (second : IsComplete rest) :
    IsComplete (cs ++ rest) := by
  rcases second with rfl | ends
  · rw [List.append_nil]
    exact first
  · refine .inr ?_
    rw [List.getLast?_append, ends]
    rfl

/-- A text that ends with another character than a newline leaves its last line open. -/
theorem not_isComplete_of_last {c : Char} (last : cs.getLast? = some c) (other : c ≠ '\n') :
    ¬ IsComplete cs := by
  rintro (rfl | newline)
  · exact nomatch last
  · exact other (Option.some.inj (last.symm.trans newline))

theorem last_append (text : String) {ending : String} {c : Char}
    (last : ending.toList.getLast? = some c) : (text ++ ending).toList.getLast? = some c := by
  rw [String.toList_append, List.getLast?_append, last]
  rfl

/-- Texts of complete lines, one behind the other, are complete lines. -/
theorem isComplete_join {pieces : List String}
    (complete : ∀ piece ∈ pieces, IsComplete piece.toList) :
    IsComplete (String.join pieces).toList := by
  induction pieces with
  | nil => exact .inl rfl
  | cons piece rest ih =>
    rw [String.join_cons, String.toList_append]
    exact (complete piece List.mem_cons_self).append
      (ih fun other mem => complete other (List.mem_cons_of_mem _ mem))

/-- What passes from the lines after the first to the whole holds of all complete lines, as there is
no last line without its newline. -/
theorem IsComplete.induction {P : (cs : List Char) → IsComplete cs → Prop} (nil : P [] (.inl rfl))
    (first : ∀ line rest (whole : IsComplete (line ++ '\n' :: rest)), '\n' ∉ line →
      P rest whole.behind_line → P (line ++ '\n' :: rest) whole)
    (cs : List Char) (complete : IsComplete cs) : P cs complete := by
  induction cs using lines_induction with
  | nil => exact nil
  | last line plain present =>
    rcases complete with empty | ends
    · exact absurd empty present
    · exact absurd (List.mem_of_getLast? ends) plain
  | first line rest plain ih => exact first line rest complete plain (ih complete.behind_line)

/-- Indentation leaves the lines complete. -/
theorem IsComplete.indentChars (complete : IsComplete cs) :
    IsComplete (indentChars indentation cs) := by
  induction cs, complete using IsComplete.induction with
  | nil => exact .inl rfl
  | first line tail whole plain ih =>
    rw [indentChars_line plain, List.append_cons]
    exact isComplete_append_newline.append ih

/-- Behind complete lines a new line starts. -/
theorem lines_append (complete : IsComplete cs) (rest : List Char) :
    lines (cs ++ rest) = lines cs ++ lines rest := by
  induction cs, complete using IsComplete.induction with
  | nil => rfl
  | first line tail whole plain ih =>
    rw [List.append_assoc, List.cons_append, lines_append_newline plain,
      lines_append_newline plain, ih, List.cons_append]

/-- Behind complete lines, what follows is indented on its own. -/
theorem indentChars_append (complete : IsComplete cs) :
    indentChars indentation (cs ++ rest) =
      indentChars indentation cs ++ indentChars indentation rest := by
  unfold Text.indentChars
  rw [lines_append complete, List.flatMap_append]

/-- A line that is not blank gets the indentation. -/
theorem indent_line {indentation line : String} (plain : '\n' ∉ line.toList)
    (shown : isBlankText line = false) :
    indent indentation (line ++ "\n") = indentation ++ (line ++ "\n") := by
  apply String.toList_inj.mp
  have blank : line.toList.all isBlank = false := shown
  have newline : (line ++ "\n").toList = line.toList ++ '\n' :: [] := String.toList_append
  rw [toList_indent_eq, newline, indentChars_line plain, indentLine, if_neg (by simp [blank])]
  simp [indentChars, lines]

/-- Behind complete lines, what follows is indented on its own. -/
theorem indent_append {indentation code behind : String} (complete : IsComplete code.toList) :
    indent indentation (code ++ behind) =
      indent indentation code ++ indent indentation behind := by
  apply String.toList_inj.mp
  rw [String.toList_append, toList_indent_eq, toList_indent_eq, toList_indent_eq,
    String.toList_append, indentChars_append complete]

theorem IsComplete.indent {code : String} (complete : IsComplete code.toList)
    (indentation : String) : IsComplete (indent indentation code).toList := by
  rw [toList_indent_eq]
  exact complete.indentChars

/-- Texts of complete lines are indented one by one. -/
theorem indent_join {pieces : List String} (indentation : String)
    (complete : ∀ piece ∈ pieces, IsComplete piece.toList) :
    Text.indent indentation (String.join pieces) =
      String.join (pieces.map (Text.indent indentation)) := by
  induction pieces with
  | nil => rfl
  | cons piece rest ih =>
    rw [String.join_cons, indent_append (complete piece List.mem_cons_self), List.map_cons,
      String.join_cons, ih fun other mem => complete other (List.mem_cons_of_mem _ mem)]

end Blockwork.Text
