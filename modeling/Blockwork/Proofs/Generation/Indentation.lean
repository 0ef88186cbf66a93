import Blockwork.Proofs.Generation.LineLiterals

/-!
# The indentation of nested statements

A statement is indented once by every block around it whose template indents its statements, each
time together with the statements beside it. As the code of these ends its lines, that comes to one
indentation by all levels: every line of the statement that is not blank stands behind the
indentations of exactly the blocks around it, and blank lines stay as they are
(`Compiler.exists_indented`, `Compiler.indentation_by_levels`).
-/

namespace Blockwork

open Text (IsComplete indentChars level lines)

/-- Complete lines behind other complete lines get the levels of the built-in. -/
theorem Builtin.exists_placed_behind (k : Builtin) {i code : String} {front cs back : List Char}
    (opens : IsComplete front) (complete : IsComplete cs)
    (written : code.toList = front ++ cs ++ back) :
    ∃ front' back', IsComplete front' ∧
      (k.placed i code).toList = front' ++ indentChars (level i.toList k.levels) cs ++ back' := by
  unfold placed levels
  split
  · refine ⟨front, back, opens, ?_⟩
    rw [written, Text.level_zero, Text.indentChars_nil]
  · refine ⟨indentChars i.toList front, indentChars i.toList back, opens.indentChars, ?_⟩
    rw [Text.toList_indent_eq, written, Text.indentChars_append (opens.append complete),
      Text.indentChars_append opens, Text.level_one]

namespace Compiler

open Enclosure (fillAll depth Listed)

variable {c : Compiler} {chain : List Enclosure} {b : Block} {s : Snippet}

theorem isComplete_codeBeside {bs : List Block}
    (each : ∀ child ∈ bs, ∀ t, (c.compile child).outcome = .ok t → IsComplete t.code.toList) :
    IsComplete (c.codeBeside bs).toList := by
  unfold codeBeside generated
  cases made : c.snippets bs with
  | error failure => exact .inl rfl
  | ok all =>
    refine Text.isComplete_join ?_
    exact List.forall_mem_map.mpr (isComplete_of_snippets made each)

/-- A statement stands in the code of the blocks around it behind complete lines, indented by the
levels of all these blocks. -/
theorem exists_indented (loaded : c.catalogue.Loaded) (flat : '\n' ∉ c.indent.toList)
    (listed : Listed c.catalogue chain) (kept : c.catalogue.KeepsValuesOut (fillAll chain b))
    (statement : ¬ c.catalogue.HasShape b .value)
    (made : (c.compile (fillAll chain b)).outcome = .ok s) :
    ∃ t front back, (c.compile b).outcome = .ok t ∧ IsComplete t.code.toList ∧
      IsComplete front ∧
        s.code.toList =
          front ++ indentChars (level c.indent.toList (depth chain)) t.code.toList ++ back := by
  induction chain generalizing s with
  | nil =>
    refine ⟨s, [], [], made, (isComplete_iff loaded b kept s made).mpr statement, .inl rfl, ?_⟩
    show _ = [] ++ indentChars (level _ 0) _ ++ []
    rw [Text.level_zero, Text.indentChars_nil, List.nil_append, List.append_nil]
  | cons e chain ih =>
    have here := listed e List.mem_cons_self
    have stands : ∀ child ∈ e.before ++ fillAll chain b :: e.after,
        c.catalogue.StandsIn (e.fill (fillAll chain b)) e.input child := fun child mem =>
      ⟨_, here, Builtin.hasStatement_iff.mpr e.holds, Enclosure.sequenceIn_fill.symm ▸ mem⟩
    have middle : fillAll chain b ∈ e.before ++ fillAll chain b :: e.after :=
      List.mem_append_right _ List.mem_cons_self
    obtain ⟨u, filled, written⟩ := code_fill here made
    obtain ⟨t, front, back, generated, complete, opens, inside⟩ :=
      ih (fun other mem => listed other (List.mem_cons_of_mem _ mem))
        (kept.of_standsIn (stands _ middle)) filled
    refine ⟨t, ?_⟩
    -- The statements in front end their lines.
    have beside : IsComplete (c.codeBeside e.before).toList := by
      refine isComplete_codeBeside fun child mem t made => ?_
      have standing := stands child (List.mem_append_left _ mem)
      exact (isComplete_iff loaded child (kept.of_standsIn standing) t made).mpr
        (kept _ _ child (.self _) standing)
    have whole : (c.codeBeside e.before ++ u.code ++ c.codeBeside e.after).toList =
        (c.codeBeside e.before).toList ++ front ++
          indentChars (level c.indent.toList (depth chain)) t.code.toList ++
            (back ++ (c.codeBeside e.after).toList) := by
      simp only [String.toList_append, inside, List.append_assoc]
    obtain ⟨front', back', starts, placed⟩ := e.builtin.exists_placed_behind (i := c.indent)
      (beside.append opens) complete.indentChars whole
    have flatLevel : '\n' ∉ level c.indent.toList (depth chain) :=
      fun mem => flat (Text.mem_of_mem_level mem)
    rw [Text.indentChars_indentChars flatLevel, ← Text.level_add] at placed
    obtain ⟨opening, closing, opened, around⟩ := e.builtin.setsOff_template c.indent e.block
    by_cases shown : e.builtin.placed c.indent
        (c.codeBeside e.before ++ u.code ++ c.codeBeside e.after) = ""
    · -- The template may leave out more than the code that it is filled with.
      rw [shown] at placed
      have nothing := (List.append_eq_nil_iff.mp (List.append_eq_nil_iff.mp placed.symm).1).2
      refine ⟨[], s.code.toList, generated, complete, .inl rfl, ?_⟩
      exact congrArg (· ++ s.code.toList) nothing.symm
    · refine ⟨opening.toList ++ front', back' ++ closing.toList, generated, complete,
        opened.append starts, ?_⟩
      rw [written, around _ shown, String.toList_append, String.toList_append, placed]
      show _ = _ ++ indentChars (level _ (e.builtin.levels + depth chain)) _ ++ _
      simp only [List.append_assoc]

/-- **Indentation by levels.** Indenting goes well with indenting again, with putting texts together
and with cutting them into lines, whatever the indentation is, as long as it has no newline:

* to indent a text twice is to indent it once by both indentations;
* behind complete lines, a text is indented on its own;
* a text that has been indented any number of times has the same lines, those that are not blank
  behind the indentation as often.

So the code of a statement that stands in other blocks, no value standing beside a statement, has
its lines in their code, those that are not blank behind as many indentations as there are blocks
around it that indent, and blank ones as they are. -/
theorem indentation_by_levels :
    (∀ i j code : String, '\n' ∉ i.toList →
        Text.indent j (Text.indent i code) = Text.indent (j ++ i) code) ∧
      (∀ i code behind : String, IsComplete code.toList →
        Text.indent i (code ++ behind) = Text.indent i code ++ Text.indent i behind) ∧
      (∀ (i code : String) (n : Nat), '\n' ∉ i.toList →
        lines ((Text.indent i)^[n] code).toList = (lines code.toList).map fun line =>
          if line.all Text.isBlank then line else level i.toList n ++ line) ∧
      ∀ (c : Compiler) (chain : List Enclosure) (b : Block) (s : Snippet),
        c.catalogue.Loaded → '\n' ∉ c.indent.toList → Listed c.catalogue chain →
        c.catalogue.KeepsValuesOut (fillAll chain b) → ¬ c.catalogue.HasShape b .value →
        (c.compile (fillAll chain b)).outcome = .ok s →
          ∃ t front back, (c.compile b).outcome = .ok t ∧
            lines s.code.toList = lines front ++ (lines t.code.toList).map (fun line =>
              if line.all Text.isBlank then line
              else level c.indent.toList (depth chain) ++ line) ++ lines back := by
  refine ⟨fun i j code flat => ?_, fun i code behind => Text.indent_append,
    fun i code n flat => ?_, ?_⟩
  · apply String.toList_inj.mp
    rw [Text.toList_indent_eq, Text.toList_indent_eq, Text.toList_indent_eq,
      Text.indentChars_indentChars flat, String.toList_append]
  · rw [Text.toList_iterate_indent flat,
      Text.lines_indentChars fun mem => flat (Text.mem_of_mem_level mem)]
    rfl
  · intro c chain b s loaded flat listed kept statement made
    obtain ⟨t, front, back, generated, complete, opens, inside⟩ :=
      exists_indented loaded flat listed kept statement made
    refine ⟨t, front, back, generated, ?_⟩
    rw [inside, List.append_assoc, Text.lines_append opens,
      Text.lines_append complete.indentChars,
      Text.lines_indentChars fun mem => flat (Text.mem_of_mem_level mem), List.append_assoc]
    rfl

/-- Three lines in the shutdown hook of a main function, indented by two spaces: as two blocks are
around them, the outer lines stand behind four spaces. The blank line has nothing in front. -/
theorem indentation_by_levels_of_hook :
    let b : Block := { id := "g", kind := "go", fields := [("line", .text "a()\n \nb()")] }
    let chain : List Enclosure :=
      [⟨.main, { id := "m", kind := "main" }, [], [], "children", rfl⟩,
        ⟨.onShutdown, { id := "h", kind := "on_shutdown" }, [], [], "NAME", rfl⟩]
    let c : Compiler := { catalogue := .ofBuiltins, indent := "  " }
    (Listed c.catalogue chain ∧ c.catalogue.KeepsValuesOut (fillAll chain b) ∧
        ¬ c.catalogue.HasShape b .value) ∧
      ∃ s front back, (c.compile (fillAll chain b)).outcome = .ok s ∧
        lines s.code.toList =
          lines front ++ ["    a()\n".toList, " \n".toList, "    b()\n".toList] ++ lines back := by
  intro b chain c
  have listed : Listed c.catalogue chain :=
    List.forall_mem_cons.mpr ⟨Catalogue.get?_ofBuiltins_id .main,
      List.forall_mem_singleton.mpr (Catalogue.get?_ofBuiltins_id .onShutdown)⟩
  have kept : c.catalogue.KeepsValuesOut (fillAll chain b) :=
    Catalogue.keepsValuesOut_ofBuiltins (by decide)
  have statement : ¬ c.catalogue.HasShape b .value := fun value =>
    nomatch (Catalogue.hasShape_iff (Catalogue.get?_ofBuiltins_id .line)).mp value
  have answers : (c.compile (fillAll chain b)).outcome.isOk = true := by decide +kernel
  obtain ⟨s, made⟩ : ∃ s, (c.compile (fillAll chain b)).outcome = .ok s :=
    match h : (c.compile (fillAll chain b)).outcome with
    | .ok s => ⟨s, rfl⟩
    | .error _ => nomatch h ▸ answers
  have generated : (c.compile b).outcome = .ok (.inLines "a()\n \nb()\n") := by decide +kernel
  obtain ⟨t, front, back, same, placed⟩ :=
    indentation_by_levels.2.2.2 c chain b s .builtins (by decide) listed kept statement made
  obtain rfl := Except.ok.inj (generated.symm.trans same)
  have middle : (lines "a()\n \nb()\n".toList).map (fun line =>
      if line.all Text.isBlank then line else level c.indent.toList (depth chain) ++ line) =
        ["    a()\n".toList, " \n".toList, "    b()\n".toList] := by
    decide +kernel
  exact ⟨⟨listed, kept, statement⟩, s, front, back, made, middle ▸ placed⟩

end Compiler

end Blockwork
