import Mathlib.Logic.Relation
import Blockwork.Proofs.Generation.FileImports
import Blockwork.Proofs.Generation.OwnLines
import Blockwork.Proofs.Source.IndentedTokens

/-!
# The literals of lines of code

What becomes of the text of a line block in the file. Each block around it whose template indents
its statements adds a level of indentation, and what stands around the text in the file does not
depend on it:

* **chains** — `Enclosure.exists_chain`: the blocks around a statement, from the outermost to the
  innermost;
* **places** — `Compiler.exists_place`: the code of a statement in the code of the blocks around it;
* **files** — `Compiler.exists_place_in_file`: the same in the body of a file;
* **literals** — `Compiler.line_literals`: the text has its tokens in the file as well, but a raw
  string of several lines is indented with the code around it, and so gets another value.
-/

namespace Blockwork

open Text (indentChars layOut level)
open Source (Alphabet ClosesLiterals)

/-! ### Blocks around a statement -/

/-- A block around a statement: a built-in with the statements in front of this one and those
behind it. -/
structure Enclosure where
  builtin : Builtin
  /-- The block, with whatever it has in its other inputs. -/
  block : Block
  before : List Block
  after : List Block
  input : String
  holds : builtin.body? = some input

/-- How many levels of indentation a built-in gives its statements. -/
def Builtin.levels (k : Builtin) : Nat :=
  if k = onStart then 0 else 1

namespace Enclosure

variable {e : Enclosure} {chain : List Enclosure} {b child : Block} {k : Builtin} {input i : String}

/-- The block with the statement in it. -/
def fill (e : Enclosure) (child : Block) : Block :=
  { e.block with
    statements := Entries.insert e.input (e.before ++ child :: e.after) e.block.statements }

/-- The outermost of the blocks around a statement, with the others and the statement in it. -/
def fillAll (chain : List Enclosure) (b : Block) : Block :=
  chain.foldr fill b

/-- How many levels of indentation the blocks give the statement. -/
def depth : List Enclosure → Nat
  | [] => 0
  | e :: chain => e.builtin.levels + depth chain

/-- The catalogue has the built-ins for the blocks. -/
def Listed (c : Catalogue) (chain : List Enclosure) : Prop :=
  ∀ e ∈ chain, c.get? e.block.kind = some ⟨e.builtin.blockType, .builtin e.builtin⟩

theorem sequenceIn_fill : (e.fill child).sequenceIn e.input = e.before ++ child :: e.after := by
  unfold fill Block.sequenceIn
  rw [Entries.get?_insert, if_pos rfl]
  rfl

/-- The statement is none of what a template takes from its block. -/
theorem template_fill : k.template i (e.fill child) = k.template i e.block := by
  cases k <;> rfl

/-- Every block with a statement in it is an enclosure that is filled with the statement. -/
theorem exists_fill (holds : k.body? = some input) (ordered : Entries.Ascending b.statements)
    (stands : child ∈ b.sequenceIn input) :
    ∃ e : Enclosure, e.builtin = k ∧ e.block = b ∧ e.fill child = b := by
  obtain ⟨before, after, whole⟩ := List.append_of_mem stands
  have found : Entries.get? input b.statements = some (before ++ child :: after) := by
    unfold Block.sequenceIn at whole
    cases there : Entries.get? input b.statements with
    | none =>
      rw [there] at whole
      exact absurd whole.symm (List.append_ne_nil_of_right_ne_nil _ (List.cons_ne_nil _ _))
    | some bs =>
      rw [there] at whole
      exact congrArg some whole
  have same : Entries.insert input (before ++ child :: after) b.statements = b.statements := by
    refine Entries.Ascending.ext (ordered.insert _ _) ordered fun name => ?_
    rw [Entries.get?_insert]
    split
    · rename_i here
      rw [← here, found]
    · rfl
  refine ⟨⟨k, b, before, after, input, holds⟩, rfl, rfl, ?_⟩
  unfold fill
  simp only [same]
  cases b
  rfl

/-- Wherever a block stands in a tree of statements, there are blocks around it, and the tree is
the outermost of these, filled with the others and the block. -/
theorem exists_chain {c : Catalogue} (loaded : c.Loaded) (ordered : b.Ordered)
    (stands : Relation.ReflTransGen (fun b child => ∃ input, c.StandsIn b input child) b child) :
    ∃ chain, Listed c chain ∧ fillAll chain child = b := by
  induction stands using Relation.ReflTransGen.head_induction_on with
  | refl => exact ⟨[], nofun, rfl⟩
  | @head b next step _ ih =>
    obtain ⟨input, listing, listed, declared, mem⟩ := step
    obtain ⟨chain, others, filled⟩ := ih (ordered.of_mem_sequenceIn mem)
    obtain ⟨k, -, builtin, -⟩ :=
      loaded.builtin_of_takesStatements ⟨listing, input, listed, declared⟩
    obtain rfl := Option.some.inj (listed.symm.trans builtin)
    obtain ⟨e, rfl, same, whole⟩ :=
      exists_fill (Builtin.hasStatement_iff.mp declared) ordered.statements.1 mem
    refine ⟨e :: chain, List.forall_mem_cons.mpr ⟨same.symm ▸ builtin, others⟩, ?_⟩
    rw [fillAll, List.foldr_cons, ← fillAll, filled, whole]

end Enclosure

namespace Compiler

open Enclosure (fillAll depth Listed)

variable {c : Compiler} {e : Enclosure} {chain : List Enclosure} {bs : List Block} {s : Snippet}

/-! ### The place of a statement -/

/-- What a sequence generates, nothing if it fails. -/
def generated (c : Compiler) (bs : List Block) : List Snippet :=
  (c.snippets bs).toOption.getD []

theorem generated_of_snippets {all : List Snippet} (made : c.snippets bs = .ok all) :
    c.generated bs = all := by
  unfold generated
  rw [made]
  rfl

/-- The code of the statements beside another one. -/
def codeBeside (c : Compiler) (bs : List Block) : String :=
  String.join ((c.generated bs).map (·.code))

/-- The code of a block around a statement is its template, filled with the code of the statement
and of those beside it. -/
theorem code_fill (listed : c.catalogue.get? e.block.kind =
      some ⟨e.builtin.blockType, .builtin e.builtin⟩) {child : Block}
    (made : (c.compile (e.fill child)).outcome = .ok s) :
    ∃ t, (c.compile child).outcome = .ok t ∧
      s.code = e.builtin.template c.indent e.block (e.builtin.placed c.indent
        (c.codeBeside e.before ++ t.code ++ c.codeBeside e.after)) := by
  have here : c.catalogue.get? (e.fill child).kind =
      some ⟨e.builtin.blockType, .builtin e.builtin⟩ := listed
  obtain ⟨own, after, answered, rfl⟩ := (outcome_of_listed here).mp made
  obtain ⟨code, mid, told, written⟩ := Builtin.template_of_answers (c.steady_holder (e.fill child))
    (Builtin.hasStatement_iff.mpr e.holds) answered
  obtain ⟨all, done, rfl, -⟩ := sequenceCode_answers.mp told
  rw [Enclosure.sequenceIn_fill] at done
  obtain ⟨first, second, front, back, rfl⟩ := snippets_append.mp done
  obtain ⟨t, others, generated, behind, rfl⟩ := snippets_cons.mp back
  refine ⟨t, generated, ?_⟩
  have joined : String.join ((first ++ t :: others).map (·.code)) =
      c.codeBeside e.before ++ t.code ++ c.codeBeside e.after := by
    unfold codeBeside
    rw [generated_of_snippets front, generated_of_snippets behind, List.map_append,
      List.map_cons, String.join_append, String.join_cons, String.append_assoc]
  rw [← joined]
  exact written.trans (congrFun Enclosure.template_fill _)

/-- Lines that are laid out by levels, with other code around them, have the levels of the built-in
on top in its template. -/
theorem exists_placed (blanks : c.indent.toList.all Text.isBlank = true)
    (flat : '\n' ∉ c.indent.toList) (k : Builtin) (front back : List Char) (n d : Nat)
    (blank : Bool) :
    ∃ m ≤ k.levels, ∃ front' back' : List Char, ∀ cs code,
      Text.IsComplete cs → cs ≠ [] → Text.startsBlank cs = blank →
        code.toList = front ++ layOut c.indent.toList n d cs ++ back →
          (k.placed c.indent code).toList =
            front' ++ layOut c.indent.toList (m + n) (k.levels + d) cs ++ back' := by
  unfold Builtin.levels Builtin.placed
  split
  · refine ⟨0, Nat.le_refl 0, front, back, fun cs code _ _ _ written => ?_⟩
    rw [written, Nat.zero_add, Nat.zero_add]
  · obtain ⟨m, bound, before, indented⟩ :=
      Text.exists_indentChars_layOut blanks flat front n d blank
    refine ⟨m, bound, before, indentChars c.indent.toList back,
      fun cs code complete present starts written => ?_⟩
    rw [Text.toList_indent_eq, written, indented cs back complete present starts]

/-- Complete lines that a block generates stand in the code of the blocks around it with the levels
of indentation that these give them. Their first line may have fewer, where other code stands in
front of it. What is around them does not depend on them, but for whether the first line is
blank. -/
theorem exists_place (blanks : c.indent.toList.all Text.isBlank = true)
    (flat : '\n' ∉ c.indent.toList) (listed : Listed c.catalogue chain) (blank : Bool) :
    ∃ n ≤ depth chain, ∃ front back : List Char, ∀ b t, (c.compile b).outcome = .ok t →
      Text.IsComplete t.code.toList → t.code.toList ≠ [] → Text.startsBlank t.code.toList = blank →
        ∀ s, (c.compile (fillAll chain b)).outcome = .ok s →
          s.code.toList =
            front ++ layOut c.indent.toList n (depth chain) t.code.toList ++ back := by
  induction chain with
  | nil =>
    refine ⟨0, Nat.le_refl 0, [], [], fun b t generated _ _ _ s made => ?_⟩
    obtain rfl := Except.ok.inj (generated.symm.trans made)
    rw [Text.layOut_eq_self rfl rfl, List.nil_append, List.append_nil]
  | cons e chain ih =>
    obtain ⟨n, bound, front, back, inner⟩ :=
      ih fun other mem => listed other (List.mem_cons_of_mem _ mem)
    obtain ⟨opening, closing, -, around⟩ := e.builtin.setsOff_template c.indent e.block
    obtain ⟨m, levels, front', back', placed⟩ := exists_placed blanks flat e.builtin
      ((c.codeBeside e.before).toList ++ front) (back ++ (c.codeBeside e.after).toList) n
      (depth chain) blank
    refine ⟨m + n, Nat.add_le_add levels bound, opening.toList ++ front', back' ++ closing.toList,
      fun b t generated complete present starts s made => ?_⟩
    obtain ⟨u, filled, written⟩ := code_fill (listed e List.mem_cons_self) made
    have inside := inner b t generated complete present starts u filled
    have whole := placed t.code.toList (c.codeBeside e.before ++ u.code ++ c.codeBeside e.after)
      complete present starts (by simp only [String.toList_append, inside, List.append_assoc])
    have shown : e.builtin.placed c.indent
        (c.codeBeside e.before ++ u.code ++ c.codeBeside e.after) ≠ "" := by
      intro none
      rw [none] at whole
      have nothing := List.append_eq_nil_iff.mp (List.append_eq_nil_iff.mp whole.symm).1
      exact Text.layOut_ne_nil complete present nothing.2
    rw [written, around _ shown, String.toList_append, String.toList_append, whole]
    show _ = _ ++ layOut _ _ (e.builtin.levels + depth chain) _ ++ _
    simp only [List.append_assoc]

/-! ### The place in the file -/

theorem exists_joinWith_around (sep : String) (before after : List String) :
    ∃ front back, ∀ text, Text.joinWith sep (before ++ text :: after) = front ++ text ++ back := by
  have step : ∀ (first : String) {rest : List String}, rest ≠ [] →
      Text.joinWith sep (first :: rest) = first ++ sep ++ Text.joinWith sep rest := by
    intro first rest present
    obtain ⟨second, others, rfl⟩ := List.exists_cons_of_ne_nil present
    rfl
  induction before with
  | nil =>
    cases after with
    | nil => exact ⟨"", "", fun text => by simp [Text.joinWith]⟩
    | cons next rest =>
      refine ⟨"", sep ++ Text.joinWith sep (next :: rest), fun text => ?_⟩
      rw [List.nil_append, step text (List.cons_ne_nil _ _), String.empty_append,
        String.append_assoc]
  | cons first rest ih =>
    obtain ⟨front, back, around⟩ := ih
    refine ⟨first ++ sep ++ front, back, fun text => ?_⟩
    rw [List.cons_append, step first (List.append_ne_nil_of_right_ne_nil _ (List.cons_ne_nil _ _)),
      around]
    simp only [String.append_assoc]

/-- The section of code that has complete lines in it ends as what is behind them says. -/
theorem exists_sectionOf (front back : List Char) : ∃ ending, ∀ (cs : List Char) (code : String),
    Text.IsComplete cs → cs.all Text.isBlank = false → code.toList = front ++ cs ++ back →
      SourceFile.sectionOf code = some (code ++ ending) := by
  refine ⟨if back.getLast?.getD '\n' = '\n' then "" else "\n",
    fun cs code complete shown written => ?_⟩
  have last : code.toList.getLast? = some (back.getLast?.getD '\n') := by
    have newline : cs.getLast? = some '\n' := complete.resolve_left fun none => by
      rw [none] at shown
      exact nomatch shown
    rw [written, List.getLast?_append, List.getLast?_append, newline]
    cases back.getLast? <;> rfl
  have visible : ¬ Text.isBlankText code = true := by
    rw [Text.isBlankText, written, List.all_append, List.all_append, shown]
    simp
  unfold SourceFile.sectionOf
  rw [if_neg visible, last]
  simp only [Option.some.injEq]
  split
  · rw [String.append_empty]
  · rfl

/-- Complete lines that are not blank stand in the body of the file in the same way. -/
theorem exists_place_in_file (blanks : c.indent.toList.all Text.isBlank = true)
    (flat : '\n' ∉ c.indent.toList) (listed : Listed c.catalogue chain) (blank : Bool)
    (before after : List Block) :
    ∃ n ≤ depth chain, ∃ front back : String, ∀ b t, (c.compile b).outcome = .ok t →
      Text.IsComplete t.code.toList → Text.isBlankText t.code = false →
        Text.startsBlank t.code.toList = blank →
          ∀ p f, p.rootsInOrder = before ++ fillAll chain b :: after → c.sourceFile p = .ok f →
            f.body = front ++
              String.ofList (layOut c.indent.toList n (depth chain) t.code.toList) ++ back := by
  obtain ⟨n, bound, front, back, inside⟩ := exists_place blanks flat listed blank
  obtain ⟨ending, closed⟩ := exists_sectionOf front back
  let sections (bs : List Block) : List String :=
    (c.generated bs).filterMap fun s => SourceFile.sectionOf s.code
  obtain ⟨opening, closing, around⟩ :=
    exists_joinWith_around "\n" (sections before) (sections after)
  refine ⟨n, bound, opening ++ String.ofList front, String.ofList back ++ ending ++ closing,
    fun b t generated complete shown starts p f standing made => ?_⟩
  obtain ⟨all, done, rfl⟩ := sourceFile_eq_ok.mp made
  rw [standing] at done
  obtain ⟨first, tail, ahead, rest, rfl⟩ := snippets_append.mp done
  obtain ⟨s, others, filled, behind, rfl⟩ := snippets_cons.mp rest
  have present : t.code.toList ≠ [] := by
    intro none
    rw [Text.isBlankText, none] at shown
    cases shown
  have written := inside b t generated complete present starts s filled
  have own : SourceFile.sectionOf s.code = some (s.code ++ ending) := by
    refine closed _ s.code (Text.isComplete_layOut complete) ?_ written
    rw [Text.all_isBlank_layOut blanks complete]
    exact shown
  have whole : (first ++ s :: others).filterMap (fun s => SourceFile.sectionOf s.code) =
      sections before ++ (s.code ++ ending) :: sections after := by
    show _ = List.filterMap _ (c.generated before) ++ _ :: List.filterMap _ (c.generated after)
    rw [generated_of_snippets ahead, generated_of_snippets behind]
    simp only [List.filterMap_append, List.filterMap_cons, own]
  have code : s.code = String.ofList front ++
      String.ofList (layOut c.indent.toList n (depth chain) t.code.toList) ++
        String.ofList back := by
    rw [← String.ofList_append, ← String.ofList_append, ← written, String.ofList_toList]
  show Text.joinWith "\n" _ = _
  rw [whole, around, code]
  simp only [String.append_assoc]

/-! ### Lines of code -/

/-- The block holds a line of code. -/
def IsLine (c : Compiler) (b : Block) : Prop :=
  c.catalogue.get? b.kind = some ⟨Builtin.line.blockType, .builtin .line⟩

/-- A line that is left blank generates nothing. -/
theorem outcome_of_blank_line {b : Block} (line : c.IsLine b)
    (blank : Text.isBlankText (b.textD "line" "") = true) : (c.compile b).outcome = .ok {} := by
  refine (outcome_of_listed line).mpr ⟨{}, {}, Builtin.line_answers.mpr ?_, rfl⟩
  rw [block_holder, if_pos blank]
  exact ⟨rfl, rfl⟩

/-- Any other generates its text as it stands. -/
theorem exists_outcome_of_line {b : Block} (line : c.IsLine b)
    (shown : Text.isBlankText (b.textD "line" "") = false) :
    ∃ t, (c.compile b).outcome = .ok t ∧ t.code = b.textD "line" "" ++ "\n" := by
  have answered : (Builtin.lineSnippet (c.holder b)).Answers {}
      (.inLines (b.textD "line" "" ++ "\n")) (Builtin.noteAll {} (b.textD "line" "")) := by
    refine Builtin.line_answers.mpr ?_
    rw [block_holder, shown, if_neg Bool.false_ne_true]
    exact ⟨rfl, rfl⟩
  exact ⟨_, (outcome_of_listed line).mpr ⟨_, _, answered, rfl⟩, rfl⟩

/-- **The literals of a line in the file.** Let the indentation be spaces and tabs, and let blocks
around a statement be given, with the roots beside the outermost. A line block that is left blank
generates nothing, and its text has no literals. Any other line in this place, with all literals
closed, stands in the file with the levels of indentation that the blocks give it; what is around
it there does not depend on its text, but for whether the first line is blank. It has the same
tokens there, with raw strings of several lines indented; so it has the same literals exactly when
nothing is added to it or it has no raw string of several lines. -/
theorem line_literals (a : Alphabet) (spaces : ∀ x ∈ c.indent.toList, x = ' ' ∨ x = '\t')
    (listed : Listed c.catalogue chain) (before after : List Block) (blank : Bool) :
    ∃ n ≤ depth chain, ∃ front back : String, ∀ b text, c.IsLine b → b.textD "line" "" = text →
      ClosesLiterals a text.toList →
        (Text.isBlankText text = true →
          (c.compile b).outcome = .ok {} ∧ Source.literals a text = []) ∧
        (Text.isBlankText text = false → Text.startsBlank text.toList = blank →
          let placed := String.ofList
            (layOut c.indent.toList n (depth chain) (text.toList ++ ['\n']))
          (∀ p f, p.rootsInOrder = before ++ fillAll chain b :: after → c.sourceFile p = .ok f →
            f.body = front ++ placed ++ back) ∧
          Source.tokens a placed = (Source.tokens a text).map
            (Source.Token.indented (level c.indent.toList (depth chain))) ∧
          (Source.literals a placed = Source.literals a text ↔
            depth chain = 0 ∨ c.indent = "" ∨
              ∀ token ∈ Source.tokens a text, token.IsFlat)) := by
  obtain ⟨allBlank, flat⟩ := Source.blank_of_indentation spaces
  obtain ⟨n, bound, front, back, place⟩ :=
    exists_place_in_file allBlank flat listed blank before after
  refine ⟨n, bound, front, back, fun b text line written closes => ?_⟩
  subst written
  refine ⟨fun nothing => ?_, fun shown starts => ⟨fun p f standing made => ?_, ?_, ?_⟩⟩
  · exact ⟨outcome_of_blank_line line nothing, Source.literals_of_blank nothing⟩
  · obtain ⟨t, generated, code⟩ := exists_outcome_of_line line shown
    have chars : t.code.toList = (b.textD "line" "").toList ++ ['\n'] := by
      rw [code, String.toList_append]
      rfl
    have visible : Text.isBlankText t.code = false := by
      unfold Text.isBlankText at shown ⊢
      rw [chars, List.all_append, shown, Bool.false_and]
    rw [← chars]
    refine place b t generated ?_ visible ?_ p f standing made
    · rw [chars]
      exact Text.isComplete_append_newline
    · rw [chars, Text.startsBlank_append_newline]
      exact starts
  · exact Source.tokens_layOut spaces closes n (depth chain)
  · rw [Source.literals_layOut_iff spaces closes, String.toList_eq_nil_iff]

/-- Two lines in the main function, with a string in the first and a raw string in the second: both
strings stand in the file as they are. -/
theorem line_literals_of_two_lines :
    let a : Alphabet := ⟨Text.isLetter, Text.isNumber⟩
    let text := "x := \"a\"\ny := `b`"
    let line : Block := { id := "g", kind := "go", fields := [("line", .text text)] }
    let around : Enclosure := ⟨.main, { id := "m", kind := "main" }, [], [], "children", rfl⟩
    let c : Compiler := { catalogue := .ofBuiltins }
    let p : Program := ⟨[around.fill line]⟩
    let f : SourceFile := { body := "func main() \x7b\n\tx := \"a\"\n\ty := `b`\n\x7d\n" }
    ((∀ x ∈ c.indent.toList, x = ' ' ∨ x = '\t') ∧ Listed c.catalogue [around] ∧ c.IsLine line ∧
        line.textD "line" "" = text ∧ ClosesLiterals a text.toList ∧
        Text.isBlankText text = false ∧ Text.startsBlank text.toList = false ∧
        p.rootsInOrder = [] ++ fillAll [around] line :: [] ∧ c.sourceFile p = .ok f) ∧
      ∃ n ≤ depth [around], ∃ front back,
        let placed := String.ofList
          (layOut c.indent.toList n (depth [around]) (text.toList ++ ['\n']))
        f.body = front ++ placed ++ back ∧ Source.literals a placed = Source.literals a text := by
  intro a text line around c p f
  have spaces : ∀ x ∈ c.indent.toList, x = ' ' ∨ x = '\t' :=
    Text.forall_mem_of_all (by decide)
  have listed : Listed c.catalogue [around] :=
    List.forall_mem_singleton.mpr (Catalogue.get?_ofBuiltins_id .main)
  have isLine : c.IsLine line := Catalogue.get?_ofBuiltins_id .line
  have read : Source.tokens a text = [.word "x", .operator ":=", .literal '"' "a" true, .lineEnd,
      .word "y", .operator ":=", .literal '\x60' "b" true, .lineEnd] := by
    decide +kernel
  have closes : ClosesLiterals a text.toList := by decide +kernel
  have order : p.rootsInOrder = [] ++ fillAll [around] line :: [] := List.mergeSort_singleton _
  have made : c.sourceFile p = .ok f := by
    unfold sourceFile
    rw [order]
    decide +kernel
  obtain ⟨n, bound, front, back, placed⟩ := line_literals a spaces listed [] [] false
  obtain ⟨stands, -, same⟩ := (placed line text isLine rfl closes).2 (by decide) (by decide)
  have flat : ∀ token ∈ Source.tokens a text, token.IsFlat := by
    rw [read]
    simp [Source.Token.IsFlat]
  exact ⟨⟨spaces, listed, isLine, rfl, closes, by decide, by decide, order, made⟩, n, bound, front,
    back, stands p f order made, same.mpr (.inr (.inr flat))⟩

/-- A raw string of two lines in the main function: the only string in the file has a tab more. -/
theorem raw_string_changed :
    let a : Alphabet := ⟨Text.isLetter, Text.isNumber⟩
    let text := "x := `a\nb`"
    let line : Block := { id := "g", kind := "go", fields := [("line", .text text)] }
    let root : Block := { id := "m", kind := "main", statements := [("children", [line])] }
    let c : Compiler := { catalogue := .ofBuiltins }
    let f : SourceFile := { body := "func main() \x7b\n\tx := `a\n\tb`\n\x7d\n" }
    ClosesLiterals a text.toList ∧ c.sourceFile ⟨[root]⟩ = .ok f ∧
      Source.literals a text = [('\x60', "a\nb")] ∧
      Source.literals a f.body = [('\x60', "a\n\tb")] ∧
      Source.literals a f.body ≠ Source.literals a text := by
  intro a text line root c f
  have closes : ClosesLiterals a text.toList := by decide +kernel
  have made : c.sourceFile ⟨[root]⟩ = .ok f := by
    have order : (Program.mk [root]).rootsInOrder = [root] := List.mergeSort_singleton _
    unfold sourceFile
    rw [order]
    decide +kernel
  have before : Source.literals a text = [('\x60', "a\nb")] := by decide +kernel
  have after : Source.literals a f.body = [('\x60', "a\n\tb")] := by decide +kernel
  refine ⟨closes, made, before, after, ?_⟩
  rw [before, after]
  decide

end Compiler

end Blockwork
