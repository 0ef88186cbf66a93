import Blockwork.Package.Parameter
import Blockwork.Proofs.Text.Classes
import Blockwork.Proofs.Text.Pieces

/-!
# Parameter lists are read back

A parameter is written as its name, with its type behind a blank if it has one, and parameters are
listed with commas between them (`Parameter.Lists`). Types may hold commas as well, inside of
brackets. What is between two brackets that belong together never tells where a piece ends
(`Parameter.cutOutside_append`), so that cutting a list at the commas outside of all brackets gives
the parameters back (`Parameter.readList_of_lists`).
-/

namespace Blockwork.Parameter

open Text (isBlank isBlankText trimWhere)

variable {depth : Nat} {c : Char} {cs ds : List Char} {p : Parameter}

/-! ### Brackets and commas -/

/-- The characters close all brackets that they open and `depth` others, those of all kinds counted
together, and have no comma where none is open. -/
structure Encloses (depth : Nat) (cs : List Char) : Prop where
  /-- No closing bracket is one too many. -/
  opened : ∀ front, front <+: cs → front.countP isClosing ≤ depth + front.countP isOpening
  closed : cs.countP isClosing = depth + cs.countP isOpening
  commas : ∀ front, front ++ [','] <+: cs →
    front.countP isClosing < depth + front.countP isOpening

theorem encloses_nil_iff : Encloses depth [] ↔ depth = 0 := by
  constructor
  · rintro ⟨-, closed, -⟩
    exact closed.symm
  · rintro rfl
    refine ⟨fun front inside => ?_, rfl, fun front inside => ?_⟩
    · rw [List.prefix_nil.mp inside]
      exact Nat.le_refl _
    · exact absurd (List.prefix_nil.mp inside) (List.append_ne_nil_of_right_ne_nil _ nofun)

theorem not_isClosing_of_isOpening (opens : isOpening c = true) : isClosing c = false := by
  simp only [isOpening, Bool.or_eq_true, beq_iff_eq] at opens
  rcases opens with (rfl | rfl) | rfl
  · rfl
  · rfl
  · rfl

/-- The depth behind a character is the depth in front of it with the bracket counted. -/
theorem depthAfter_add (deep : isClosing c = true → 0 < depth) (front : List Char) :
    depthAfter depth c + front.countP isOpening + (if isClosing c = true then 1 else 0) =
      depth + (c :: front).countP isOpening := by
  rw [List.countP_cons]
  unfold depthAfter
  by_cases opens : isOpening c = true
  · rw [if_pos opens, if_pos opens, not_isClosing_of_isOpening opens, if_neg Bool.false_ne_true]
    omega
  · rw [if_neg opens, if_neg opens]
    split
    · have := deep ‹_›
      omega
    · omega

/-- Brackets are counted on from each character to the next. -/
theorem encloses_cons_iff : Encloses depth (c :: cs) ↔
    (isClosing c = true ∨ c = ',' → 0 < depth) ∧ Encloses (depthAfter depth c) cs := by
  constructor
  · rintro ⟨opened, closed, commas⟩
    have deep : isClosing c = true → 0 < depth := by
      intro closes
      have first := opened [c] (List.prefix_append [c] cs)
      have noOpening : isOpening c = false := by
        cases opens : isOpening c with
        | false => rfl
        | true => exact absurd (closes.symm.trans (not_isClosing_of_isOpening opens)) nofun
      rw [List.countP_singleton, List.countP_singleton, closes, noOpening] at first
      exact first
    have behind := depthAfter_add deep
    refine ⟨fun mark => mark.elim deep fun comma => ?_, fun front inside => ?_, ?_,
      fun front inside => ?_⟩
    · exact commas [] (comma ▸ List.prefix_append [','] cs)
    · have counted := opened (c :: front) (List.cons_prefix_cons.mpr ⟨rfl, inside⟩)
      rw [List.countP_cons, ← behind front] at counted
      exact Nat.le_of_add_le_add_right counted
    · rw [List.countP_cons, ← behind cs] at closed
      exact Nat.add_right_cancel closed
    · have counted := commas (c :: front) (List.cons_prefix_cons.mpr ⟨rfl, inside⟩)
      rw [List.countP_cons, ← behind front] at counted
      exact Nat.lt_of_add_lt_add_right counted
  · rintro ⟨mark, opened, closed, commas⟩
    have behind := depthAfter_add fun closes => mark (.inl closes)
    refine ⟨fun front inside => ?_, ?_, fun front inside => ?_⟩
    · cases front with
      | nil => exact Nat.zero_le _
      | cons d front =>
        obtain ⟨rfl, within⟩ := List.cons_prefix_cons.mp inside
        rw [List.countP_cons, ← behind front]
        exact Nat.add_le_add_right (opened front within) _
    · rw [List.countP_cons, ← behind cs, closed]
    · cases front with
      | nil =>
        obtain ⟨same, -⟩ := List.cons_prefix_cons.mp inside
        exact mark (.inr same.symm)
      | cons d front =>
        obtain ⟨rfl, within⟩ := List.cons_prefix_cons.mp inside
        rw [List.countP_cons, ← behind front]
        exact Nat.add_lt_add_right (commas front within) _

instance decidableEncloses : ∀ depth cs, Decidable (Encloses depth cs)
  | _, [] => decidable_of_iff _ encloses_nil_iff.symm
  | depth, c :: cs =>
    have := decidableEncloses (depthAfter depth c) cs
    decidable_of_iff _ encloses_cons_iff.symm

theorem Encloses.append (first : Encloses depth cs) (second : Encloses 0 ds) :
    Encloses depth (cs ++ ds) := by
  induction cs generalizing depth with
  | nil =>
    obtain rfl := encloses_nil_iff.mp first
    exact second
  | cons c rest ih =>
    obtain ⟨mark, inner⟩ := encloses_cons_iff.mp first
    exact encloses_cons_iff.mpr ⟨mark, ih inner⟩

/-- Characters of a class without brackets and commas enclose nothing. -/
theorem encloses_of_class {p : Char → Bool}
    (outside : (['(', '[', '\x7b', ')', ']', '\x7d', ','].all fun mark => !p mark) = true)
    (all : ∀ c ∈ cs, p c = true) : Encloses 0 cs := by
  have none : ∀ c, p c = true → ∀ mark ∈ ['(', '[', '\x7b', ')', ']', '\x7d', ','], c ≠ mark := by
    intro c inside mark mem
    exact Text.ne_of_class inside (by simpa using List.all_eq_true.mp outside mark mem)
  induction cs with
  | nil => exact encloses_nil_iff.mpr rfl
  | cons c rest ih =>
    have other := none c (all c List.mem_cons_self)
    have noOpening : isOpening c = false := by
      simp [isOpening, other]
    have noClosing : isClosing c = false := by
      simp [isClosing, other]
    have same : depthAfter 0 c = 0 := by
      rw [depthAfter, noOpening, noClosing, if_neg Bool.false_ne_true, if_neg Bool.false_ne_true]
    refine encloses_cons_iff.mpr ⟨?_, ?_⟩
    · rintro (closes | comma)
      · exact absurd (closes.symm.trans noClosing) nofun
      · exact absurd comma (other ',' (by decide))
    · rw [same]
      exact ih fun d mem => all d (List.mem_cons_of_mem c mem)

theorem encloses_blanks {text : String} (blanks : isBlankText text = true) :
    Encloses 0 text.toList :=
  encloses_of_class (by decide) (List.all_eq_true.mp blanks)

theorem encloses_of_isIdentifier {name : String} (word : Text.isIdentifier name = true) :
    Encloses 0 name.toList :=
  encloses_of_class (by decide) fun _ mem => Text.isWordPart_of_mem word mem

/-! ### Cutting at the commas outside -/

theorem cutOutside_cons (inside : ¬ (c = ',' ∧ depth = 0)) (cs : List Char) :
    cutOutside depth (c :: cs) = (cutOutside (depthAfter depth c) cs).modifyHead (c :: ·) := by
  rw [cutOutside, if_neg inside]
  split
  · rename_i nothing
    exact absurd nothing (cutOutside_ne_nil _ cs)
  · rename_i first others pieces
    rw [pieces]
    rfl

/-- What encloses its commas is not cut. -/
theorem cutOutside_append (encloses : Encloses depth cs) (ds : List Char) :
    cutOutside depth (cs ++ ds) = (cutOutside 0 ds).modifyHead (cs ++ ·) := by
  induction cs generalizing depth with
  | nil =>
    obtain rfl := encloses_nil_iff.mp encloses
    exact (congrFun List.modifyHead_id _).symm
  | cons c rest ih =>
    obtain ⟨mark, inner⟩ := encloses_cons_iff.mp encloses
    have inside : ¬ (c = ',' ∧ depth = 0) :=
      fun comma => Nat.ne_of_gt (mark (.inr comma.1)) comma.2
    rw [List.cons_append, cutOutside_cons inside, ih inner, List.modifyHead_modifyHead]
    rfl

/-- The first piece ends at the first comma behind what encloses its own. -/
theorem cutOutside_append_comma (encloses : Encloses 0 cs) (ds : List Char) :
    cutOutside 0 (cs ++ ',' :: ds) = cs :: cutOutside 0 ds := by
  rw [cutOutside_append encloses, cutOutside, if_pos ⟨rfl, rfl⟩, List.modifyHead_cons,
    List.append_nil]

theorem cutOutside_of_encloses (encloses : Encloses 0 cs) : cutOutside 0 cs = [cs] := by
  have whole := cutOutside_append encloses []
  rwa [List.append_nil, cutOutside, List.modifyHead_cons, List.append_nil] at whole

/-! ### Written parameters -/

/-- A parameter as it is written: its name, and behind a blank its type if it has one. -/
def written (p : Parameter) : String :=
  if p.type.isEmpty then p.name else s!"{p.name} {p.type}"

/-- The name is an identifier, and the type has no blanks around it and closes its brackets, with
commas only inside of them. -/
structure IsWritable (p : Parameter) : Prop where
  name : Text.isIdentifier p.name = true
  trimmed : Text.trim p.type = p.type
  encloses : Encloses 0 p.type.toList

/-- The text lists the parameters as they are written, with commas between them and any blanks
beside the commas. -/
inductive Lists : List Parameter → String → Prop where
  | none : Lists [] ""
  | last (p : Parameter) : Lists [p] p.written
  | more (p : Parameter) {q : Parameter} {rest : List Parameter} {text before after : String}
      (blankBefore : isBlankText before = true) (blankAfter : isBlankText after = true)
      (others : Lists (q :: rest) text) :
      Lists (p :: q :: rest) (p.written ++ before ++ "," ++ after ++ text)

theorem toList_written (p : Parameter) :
    p.written.toList =
      p.name.toList ++ if p.type.toList = [] then [] else ' ' :: p.type.toList := by
  unfold written
  by_cases none : p.type.toList = []
  · rw [if_pos none, if_pos (String.isEmpty_iff.mpr (String.toList_eq_nil_iff.mp none)),
      List.append_nil]
  · rw [if_neg none, if_neg fun empty => none (String.toList_eq_nil_iff.mpr
      (String.isEmpty_iff.mp empty))]
    simp [toString]

namespace IsWritable

variable (writable : p.IsWritable)

include writable

theorem encloses_written : Encloses 0 p.written.toList := by
  rw [toList_written]
  refine (encloses_of_isIdentifier writable.name).append ?_
  split
  · exact encloses_nil_iff.mpr rfl
  · have blank : Encloses 0 [' '] := by decide
    exact blank.append writable.encloses

theorem not_isBlank_of_mem_name (mem : c ∈ p.name.toList) : isBlank c = false := by
  cases blank : isBlank c with
  | false => rfl
  | true =>
    have part := Text.isWordPart_of_mem writable.name mem
    rw [Text.not_isWordPart_of_isBlank blank] at part
    exact nomatch part

theorem name_ne_nil : p.name.toList ≠ [] := by
  intro none
  have word := writable.name
  rw [Text.isIdentifier, none] at word
  exact nomatch word

theorem trimWhere_type : trimWhere isBlank p.type.toList = p.type.toList := by
  rw [← Text.toList_trim, writable.trimmed]

/-- There is nothing to trim around a written parameter. -/
theorem trimWhere_written : trimWhere isBlank p.written.toList = p.written.toList := by
  have front : p.written.toList.dropWhile isBlank = p.written.toList := by
    obtain ⟨c, cs, letters⟩ := List.exists_cons_of_ne_nil writable.name_ne_nil
    have stays := writable.not_isBlank_of_mem_name (letters ▸ List.mem_cons_self)
    rw [toList_written, letters]
    exact List.dropWhile_cons_of_neg (Bool.eq_false_iff.mp stays)
  rw [trimWhere, front, toList_written]
  split
  · rw [List.append_nil]
    exact Text.dropEndWhile_of_forall fun c mem => writable.not_isBlank_of_mem_name mem
  · rename_i present
    have type : Text.dropEndWhile isBlank p.type.toList = p.type.toList := by
      have trimmed := writable.trimWhere_type
      rw [← trimmed, trimWhere, Text.dropEndWhile_dropEndWhile]
    rw [List.append_cons, Text.dropEndWhile_append (type.symm ▸ present), type]

/-- A written parameter is read back. -/
theorem ofPiece_written : ofPiece p.written.toList = p := by
  have name : ∀ c ∈ p.name.toList, (!isBlank c) = true := by
    intro c mem
    rw [writable.not_isBlank_of_mem_name mem]
    rfl
  have behind : ∀ type, String.ofList (trimWhere isBlank type) = p.type →
      type.takeWhile (fun c => !isBlank c) = [] →
      type.dropWhile (fun c => !isBlank c) = type → ofPiece (p.name.toList ++ type) = p := by
    intro type same none all
    unfold ofPiece
    rw [List.takeWhile_append_of_pos name, List.dropWhile_append_of_pos name, none, all, same,
      List.append_nil, String.ofList_toList]
  rw [toList_written]
  split
  · rename_i none
    exact behind [] (String.toList_eq_nil_iff.mp none).symm rfl rfl
  · refine behind _ ?_ rfl rfl
    have blank : [' '].all isBlank = true := by decide
    rw [← List.singleton_append, Text.trimWhere_all_append blank, writable.trimWhere_type,
      String.ofList_toList]

end IsWritable

/-! ### Lists of parameters -/

/-- The pieces of a list are the written parameters, when blanks and empty pieces are left out. -/
theorem pieces_of_lists {parameters : List Parameter} {text : String}
    (lists : Lists parameters text) (writable : ∀ p ∈ parameters, p.IsWritable) :
    ((cutOutside 0 text.toList).map (trimWhere isBlank)).filter (fun piece => !piece.isEmpty) =
      parameters.map (·.written.toList) := by
  have kept : ∀ (p : Parameter) (others : List (List Char)), p.IsWritable →
      (p.written.toList :: others).filter (fun piece => !piece.isEmpty) =
        p.written.toList :: others.filter fun piece => !piece.isEmpty := by
    intro p others fits
    refine List.filter_cons_of_pos ?_
    rw [toList_written]
    simp [fits.name_ne_nil]
  induction lists with
  | none => rfl
  | last p =>
    have fits := writable p List.mem_cons_self
    rw [cutOutside_of_encloses fits.encloses_written, List.map_singleton, List.map_singleton,
      fits.trimWhere_written, kept p _ fits, List.filter_nil]
  | @more p q rest text before after blankBefore blankAfter others ih =>
    have fits := writable p List.mem_cons_self
    -- The blanks behind a comma go to the piece behind them.
    have again : (cutOutside 0 (after ++ text).toList).map (trimWhere isBlank) =
        (cutOutside 0 text.toList).map (trimWhere isBlank) := by
      rw [String.toList_append, cutOutside_append (encloses_blanks blankAfter)]
      cases cutOutside 0 text.toList with
      | nil => rfl
      | cons first others =>
        rw [List.modifyHead_cons, List.map_cons, Text.trimWhere_all_append blankAfter,
          List.map_cons]
    have whole : (p.written ++ before ++ "," ++ after ++ text).toList =
        (p.written ++ before).toList ++ ',' :: (after ++ text).toList := by
      simp
    have front : trimWhere isBlank (p.written ++ before).toList = p.written.toList := by
      rw [String.toList_append, Text.trimWhere_append_of_all blankBefore, fits.trimWhere_written]
    have closed : Encloses 0 (p.written ++ before).toList := by
      rw [String.toList_append]
      exact fits.encloses_written.append (encloses_blanks blankBefore)
    rw [whole, cutOutside_append_comma closed, List.map_cons, front, again, kept p _ fits,
      ih fun p mem => writable p (List.mem_cons_of_mem _ mem)]
    rfl

/-- **Parameter lists are read back.** Let parameters have identifiers for names, and types that
have no blanks around them, balance their brackets and keep their commas inside of brackets; a type
may be missing. Listed with commas between them and any blanks beside the commas, they are read back
as they are, in their order. -/
theorem readList_of_lists {parameters : List Parameter} {text : String}
    (lists : Lists parameters text) (writable : ∀ p ∈ parameters, p.IsWritable) :
    readList text = parameters := by
  have pieces := pieces_of_lists lists writable
  unfold readList
  simp only [pieces, List.map_map]
  refine (List.map_congr_left fun p mem => ?_).trans (List.map_id parameters)
  exact (writable p mem).ofPiece_written

/-- Commas inside of brackets of three kinds, a parameter without a type, and a list that goes over
two lines. -/
theorem readList_of_lists_of_handler :
    let parameters : List Parameter :=
      [⟨"handle", "func(w http.ResponseWriter, r *http.Request)"⟩,
        ⟨"größe", "map[[2]int]struct\x7b a, b int \x7d"⟩, ⟨"n", ""⟩]
    let text := "handle func(w http.ResponseWriter, r *http.Request),\n\t" ++
      "größe map[[2]int]struct\x7b a, b int \x7d ,n"
    Lists parameters text ∧ readList text = parameters := by
  intro parameters text
  have nothing : isBlankText "" = true := rfl
  have blank : isBlankText " " = true := by decide
  have newline : isBlankText "\n\t" = true := by decide
  have same : text = parameters[0].written ++ "" ++ "," ++ "\n\t" ++
      (parameters[1].written ++ " " ++ "," ++ "" ++ parameters[2].written) := by
    decide +kernel
  have lists : Lists parameters text := by
    rw [same]
    exact .more _ nothing newline (.more _ blank nothing (.last _))
  have writable : ∀ p ∈ parameters, p.IsWritable := by
    have each : ∀ p ∈ parameters, Text.isIdentifier p.name = true ∧ Text.trim p.type = p.type ∧
        Encloses 0 p.type.toList := by
      decide +kernel
    exact fun p mem => ⟨(each p mem).1, (each p mem).2.1, (each p mem).2.2⟩
  exact ⟨lists, readList_of_lists lists writable⟩

end Blockwork.Parameter
