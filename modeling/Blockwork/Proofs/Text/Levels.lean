import Mathlib.Logic.Function.Iterate
import Blockwork.Proofs.Text.Lines

/-!
# Levels of indentation

Code that stands several blocks deep is indented once for each of them. Where the indentation has
no newline, that comes to the same as indenting it once, by all levels together
(`indentChars_indentChars`), and the lines stay what they are, each but for its indentation
(`lines_indentChars`).

A text can also stand in the middle of others, behind the beginning of a line. Then its first line
is not indented for itself. `layOut` gives the first line and the other lines levels of their own,
and `exists_indentChars_layOut` says what indenting the whole does to the text: one level more for
the other lines, and one or none for the first.
-/

namespace Blockwork.Text

variable {i j line rest cs : List Char} {n d : Nat}

/-! ### Levels -/

/-- The indentation of several levels. -/
def level (i : List Char) (n : Nat) : List Char :=
  (List.replicate n i).flatten

theorem level_zero : level i 0 = [] := rfl

theorem level_one : level i 1 = i :=
  List.append_nil i

theorem level_add (m : Nat) : level i (m + n) = level i m ++ level i n := by
  unfold level
  rw [← List.replicate_append_replicate, List.flatten_append]

theorem level_eq_nil_iff : level i n = [] ↔ n = 0 ∨ i = [] := by
  rw [level, List.flatten_eq_nil_iff, List.forall_mem_replicate]

theorem mem_of_mem_level {c : Char} (mem : c ∈ level i n) : c ∈ i := by
  obtain ⟨part, among, inside⟩ := List.mem_flatten.mp mem
  exact List.eq_of_mem_replicate among ▸ inside

theorem all_isBlank_level (blanks : i.all isBlank = true) (n : Nat) :
    (level i n).all isBlank = true :=
  List.all_eq_true.mpr fun _ mem => List.all_eq_true.mp blanks _ (mem_of_mem_level mem)

/-! ### Indenting again -/

theorem indentLine_nil (line : List Char) : indentLine [] line = line :=
  ite_self line

theorem all_isBlank_indentLine (blanks : j.all isBlank = true) :
    (indentLine j line).all isBlank = line.all isBlank := by
  unfold indentLine
  split
  · rfl
  · rw [List.all_append, blanks, Bool.true_and]

theorem indentLine_indentLine : indentLine i (indentLine j line) = indentLine (i ++ j) line := by
  unfold indentLine
  by_cases blank : line.all isBlank = true
  · simp only [if_pos blank]
  · have shown : ¬ (j ++ line).all isBlank = true := by
      rw [List.all_append, Bool.and_eq_true]
      exact fun both => blank both.2
    simp only [if_neg blank, if_neg shown, List.append_assoc]

theorem not_mem_indentLine (flat : '\n' ∉ j) (plain : '\n' ∉ line) : '\n' ∉ indentLine j line := by
  unfold indentLine
  split
  · exact plain
  · exact fun mem => (List.mem_append.mp mem).elim flat plain

theorem indentChars_nil (cs : List Char) : indentChars [] cs = cs := by
  unfold indentChars
  rw [funext indentLine_nil, List.flatMap_id', flatten_lines]

/-- Indentation makes no lines and takes none away. -/
theorem lines_indentChars (flat : '\n' ∉ i) (cs : List Char) :
    lines (indentChars i cs) = (lines cs).map (indentLine i) := by
  induction cs using lines_induction with
  | nil => rfl
  | last line plain present =>
    have there : indentLine i line ≠ [] := by
      unfold indentLine
      split
      · exact present
      · exact List.append_ne_nil_of_right_ne_nil _ present
    rw [indentChars_of_line plain, lines_of_line plain present,
      lines_of_line (not_mem_indentLine flat plain) there]
    rfl
  | first line rest plain ih =>
    rw [indentChars_line plain, lines_append_newline plain,
      lines_append_newline (not_mem_indentLine flat plain), ih, List.map_cons,
      indentLine_append_newline]

/-- Indenting twice is indenting by both indentations. -/
theorem indentChars_indentChars (flat : '\n' ∉ j) (cs : List Char) :
    indentChars i (indentChars j cs) = indentChars (i ++ j) cs := by
  rw [indentChars, lines_indentChars flat, List.flatMap_map, funext fun _ => indentLine_indentLine]
  rfl

/-- Indenting several times is indenting by that many levels. -/
theorem toList_iterate_indent {indentation : String} (flat : '\n' ∉ indentation.toList)
    (code : String) (n : Nat) :
    ((indent indentation)^[n] code).toList =
      indentChars (level indentation.toList n) code.toList := by
  induction n with
  | zero => exact (indentChars_nil _).symm
  | succ n ih =>
    have flatLevel : '\n' ∉ level indentation.toList n := fun mem => flat (mem_of_mem_level mem)
    rw [Function.iterate_succ_apply', toList_indent_eq, ih, indentChars_indentChars flatLevel,
      Nat.add_comm, level_add, level_one]

theorem length_le_indentLine (j line : List Char) : line.length ≤ (indentLine j line).length := by
  unfold indentLine
  split
  · exact Nat.le_refl _
  · rw [List.length_append]
    exact Nat.le_add_left _ _

theorem length_le_indentChars (cs : List Char) : cs.length ≤ (indentChars j cs).length := by
  induction cs using lines_induction with
  | nil => exact Nat.le_refl _
  | last line plain present =>
    rw [indentChars_of_line plain]
    exact length_le_indentLine j line
  | first line rest plain ih =>
    have front := length_le_indentLine j line
    rw [indentChars_line plain]
    simp only [List.length_append, List.length_cons]
    omega

/-- Indentation is seen in a text that is not blank. -/
theorem length_lt_indentChars (present : j ≠ []) (shown : cs.all isBlank = false) :
    cs.length < (indentChars j cs).length := by
  have grows : ∀ {line : List Char}, line.all isBlank = false →
      line.length < (indentLine j line).length := by
    intro line shown
    have some := List.length_pos_iff.mpr present
    rw [indentLine, shown, if_neg Bool.false_ne_true, List.length_append]
    omega
  induction cs using lines_induction with
  | nil => cases shown
  | last line plain _ =>
    rw [indentChars_of_line plain]
    exact grows shown
  | first line rest plain ih =>
    have newline : isBlank '\n' = true := by decide
    rw [indentChars_line plain]
    simp only [List.length_append, List.length_cons]
    rw [List.all_append, List.all_cons, newline, Bool.true_and, Bool.and_eq_false_iff] at shown
    rcases shown with here | there
    · have front := grows here
      have back := length_le_indentChars (j := j) rest
      omega
    · have front := length_le_indentLine j line
      have back := ih there
      omega

/-! ### Texts between others -/

/-- The first line of a text with some levels of indentation, the other lines with others. -/
def layOut (i : List Char) (n d : Nat) (cs : List Char) : List Char :=
  match lines cs with
  | [] => []
  | first :: others => indentLine (level i n) first ++ others.flatMap (indentLine (level i d))

/-- Whether the first line is blank. -/
def startsBlank (cs : List Char) : Bool :=
  (cs.takeWhile (· != '\n')).all isBlank

theorem layOut_line (plain : '\n' ∉ line) :
    layOut i n d (line ++ '\n' :: rest) =
      indentLine (level i n) line ++ '\n' :: indentChars (level i d) rest := by
  unfold layOut indentChars
  rw [lines_append_newline plain]
  simp only
  rw [indentLine_append_newline, List.append_assoc]
  rfl

theorem layOut_of_line (plain : '\n' ∉ line) :
    layOut i n d line = indentLine (level i n) line := by
  cases line with
  | nil => rfl
  | cons c cs =>
    unfold layOut
    rw [lines_of_line plain (List.cons_ne_nil _ _)]
    exact List.append_nil _

/-- Levels that are empty leave the text as it is. -/
theorem layOut_eq_self (first : level i n = []) (others : level i d = []) (cs : List Char) :
    layOut i n d cs = cs := by
  induction cs using lines_induction with
  | nil => rfl
  | last line plain present => rw [layOut_of_line plain, first, indentLine_nil]
  | first line rest plain ih =>
    rw [layOut_line plain, first, others, indentLine_nil, indentChars_nil]

theorem startsBlank_append_newline (cs : List Char) :
    startsBlank (cs ++ ['\n']) = startsBlank cs := by
  unfold startsBlank
  induction cs with
  | nil => rfl
  | cons c rest ih =>
    rw [List.cons_append, List.takeWhile_cons, List.takeWhile_cons]
    split
    · rw [List.all_cons, List.all_cons, ih]
    · rfl

theorem startsBlank_line (plain : '\n' ∉ line) :
    startsBlank (line ++ '\n' :: rest) = line.all isBlank := by
  unfold startsBlank
  rw [List.takeWhile_append_of_pos, List.takeWhile_cons_of_neg (by simp), List.append_nil]
  intro c mem
  simpa using fun same : c = '\n' => plain (same ▸ mem)

/-- A text is complete lines and the beginning of another one. -/
theorem exists_last_line (cs : List Char) :
    ∃ front last, cs = front ++ last ∧ IsComplete front ∧ '\n' ∉ last := by
  induction cs using lines_induction with
  | nil => exact ⟨[], [], rfl, .inl rfl, List.not_mem_nil⟩
  | last line plain present => exact ⟨[], line, rfl, .inl rfl, plain⟩
  | first line rest plain ih =>
    obtain ⟨front, last, rfl, complete, flat⟩ := ih
    refine ⟨line ++ '\n' :: front, last, by simp, ?_, flat⟩
    rw [List.append_cons]
    exact isComplete_append_newline.append complete

/-- Complete lines start with a first one. -/
theorem IsComplete.exists_first_line (complete : IsComplete cs) (present : cs ≠ []) :
    ∃ line rest, cs = line ++ '\n' :: rest ∧ '\n' ∉ line ∧ IsComplete rest := by
  have newline : '\n' ∈ cs := List.mem_of_getLast? (complete.resolve_left present)
  obtain ⟨line, rest, rfl, plain⟩ := List.eq_append_cons_of_mem newline
  exact ⟨line, rest, rfl, plain, complete.behind_line⟩

theorem layOut_ne_nil (complete : IsComplete cs) (present : cs ≠ []) : layOut i n d cs ≠ [] := by
  obtain ⟨line, rest, rfl, plain, -⟩ := complete.exists_first_line present
  rw [layOut_line plain]
  exact List.append_ne_nil_of_right_ne_nil _ (List.cons_ne_nil _ _)

theorem isComplete_layOut (complete : IsComplete cs) : IsComplete (layOut i n d cs) := by
  by_cases present : cs = []
  · rw [present]
    exact .inl rfl
  · obtain ⟨line, rest, rfl, plain, whole⟩ := complete.exists_first_line present
    rw [layOut_line plain, List.append_cons]
    exact isComplete_append_newline.append whole.indentChars

theorem all_isBlank_indentChars (blanks : j.all isBlank = true) (cs : List Char) :
    (indentChars j cs).all isBlank = cs.all isBlank := by
  induction cs using lines_induction with
  | nil => rfl
  | last line plain present => rw [indentChars_of_line plain, all_isBlank_indentLine blanks]
  | first line rest plain ih =>
    rw [indentChars_line plain, List.all_append, List.all_append, all_isBlank_indentLine blanks,
      List.all_cons, List.all_cons, ih]

theorem all_isBlank_layOut (blanks : i.all isBlank = true) (complete : IsComplete cs) :
    (layOut i n d cs).all isBlank = cs.all isBlank := by
  by_cases present : cs = []
  · rw [present]
    rfl
  · obtain ⟨line, rest, rfl, plain, -⟩ := complete.exists_first_line present
    rw [layOut_line plain, List.all_append, List.all_append,
      all_isBlank_indentLine (all_isBlank_level blanks n), List.all_cons, List.all_cons,
      all_isBlank_indentChars (all_isBlank_level blanks d)]

/-- Indenting a text between others gives its first line a level when it stands at the beginning
of a line, and the other lines one in any case. What this makes of the text in front depends on it
only through whether it starts with blanks. -/
theorem exists_indentChars_around (i front : List Char) (blank : Bool) :
    ∃ m ≤ 1, ∃ before, ∀ line rest back, '\n' ∉ line → line.all isBlank = blank →
      IsComplete rest →
        indentChars i (front ++ (line ++ '\n' :: rest) ++ back) =
          before ++ (indentLine (level i m) line ++ '\n' :: indentChars i rest) ++
            indentChars i back := by
  obtain ⟨front, last, rfl, complete, flat⟩ := exists_last_line front
  have split : ∀ line rest back : List Char, '\n' ∉ line → IsComplete rest →
      indentChars i (front ++ last ++ (line ++ '\n' :: rest) ++ back) =
        indentChars i front ++ (indentLine i (last ++ line) ++ '\n' :: indentChars i rest) ++
          indentChars i back := by
    intro line rest back plain whole
    have joined : '\n' ∉ last ++ line := fun mem => (List.mem_append.mp mem).elim flat plain
    have regroup : front ++ last ++ (line ++ '\n' :: rest) ++ back =
        front ++ ((last ++ line) ++ '\n' :: (rest ++ back)) := by simp
    rw [regroup, indentChars_append complete, indentChars_line joined, indentChars_append whole]
    simp
  cases last with
  | nil =>
    refine ⟨1, Nat.le_refl 1, indentChars i front, fun line rest back plain _ whole => ?_⟩
    rw [split line rest back plain whole, level_one, List.nil_append]
  | cons c cs =>
    -- The indentation goes in front of the beginning of the line, if it goes in at all.
    let opening := if (c :: cs).all isBlank && blank then c :: cs else i ++ c :: cs
    refine ⟨0, Nat.zero_le 1, indentChars i front ++ opening,
      fun line rest back plain same whole => ?_⟩
    have opened : indentLine i (c :: cs ++ line) = opening ++ line := by
      unfold indentLine
      rw [List.all_append, same]
      show (if _ then _ else _) = (if _ then _ else _) ++ line
      split
      · rfl
      · rw [List.append_assoc]
    rw [split line rest back plain whole, opened, level_zero, indentLine_nil]
    simp only [List.append_assoc]

/-- The same of lines that are laid out by levels already. -/
theorem exists_indentChars_layOut (blanks : i.all isBlank = true) (flat : '\n' ∉ i)
    (front : List Char) (n d : Nat) (blank : Bool) :
    ∃ m ≤ 1, ∃ before, ∀ cs back, IsComplete cs → cs ≠ [] → startsBlank cs = blank →
      indentChars i (front ++ layOut i n d cs ++ back) =
        before ++ layOut i (m + n) (1 + d) cs ++ indentChars i back := by
  obtain ⟨m, bound, before, around⟩ := exists_indentChars_around i front blank
  refine ⟨m, bound, before, fun cs back complete present same => ?_⟩
  obtain ⟨line, rest, rfl, plain, whole⟩ := complete.exists_first_line present
  rw [startsBlank_line plain] at same
  have flatLevel (k : Nat) : '\n' ∉ level i k := fun mem => flat (mem_of_mem_level mem)
  have stillBlank : (indentLine (level i n) line).all isBlank = blank :=
    (all_isBlank_indentLine (all_isBlank_level blanks n)).trans same
  rw [layOut_line plain, around _ _ _ (not_mem_indentLine (flatLevel n) plain) stillBlank
    whole.indentChars, layOut_line plain, level_add, level_add, level_one,
    indentLine_indentLine, indentChars_indentChars (flatLevel d)]

end Blockwork.Text
