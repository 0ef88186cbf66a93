import Blockwork.Proofs.Generation.Placement
import Blockwork.Proofs.Text.Lines

/-!
# Statements on lines of their own

Every template but those of values ends its last line, and those of values leave theirs open
(`Builtin.isComplete_iff`). A block for the start has no template, so it ends its lines as long as
the blocks in it do. That is the case in a tree whose statement inputs hold no values: there the
code of a block is complete lines exactly when the block is no value
(`Compiler.isComplete_iff`).

So each block with statement inputs puts complete lines between complete lines: what stands in the
input starts on a line of its own, and what the template has behind it does (`Compiler.own_lines`).
-/

namespace Blockwork

namespace Builtin

variable {i : String} {k : Builtin} {h : Holder} {env : Surroundings} {top after : Usage}
  {own : Snippet} {input : String}

/-! ### Templates around statements -/

/-- What a built-in makes of the code in its statement input, by the fields of its block. -/
def template (i : String) (b : Block) : Builtin → String → String
  | main => mainCode
  | server =>
    -- A server with a wrong port has no code.
    let port := (portOf b).toOption.getD 0
    let host := Text.trim (b.textD "hostname" defaultHost)
    serverCode i (Source.quote s!"{host}:{port}")
  | routeGroup => routeGroupCode i
  | route =>
    let method := (methodOf b).toOption.getD ""
    let handler := Text.trim (b.textD "handler" "")
    fun inner =>
      routeCode i (Source.quote (b.textD "path" defaultPath)) (Source.quote method) inner handler
  | onShutdown => shutdownCode i
  | map => mapCode
  | _ => id

/-- How the code in the statement input of a built-in comes into its template: all but blocks for
the start indent it. -/
def placed (i : String) (k : Builtin) (code : String) : String :=
  if k = onStart then code else Text.indent i code

theorem placed_join {pieces : List String}
    (complete : ∀ piece ∈ pieces, Text.IsComplete piece.toList) :
    k.placed i (String.join pieces) = String.join (pieces.map (k.placed i)) := by
  unfold placed
  split
  · rw [List.map_id'']
    exact fun _ => rfl
  · exact Text.indent_join i complete

theorem isComplete_placed {code : String} (complete : Text.IsComplete code.toList) :
    Text.IsComplete (k.placed i code).toList := by
  unfold placed
  split
  · exact complete
  · exact complete.indent i

end Builtin

/-! ### What a template puts around its text -/

/-- Any text that fills the template stands behind the same complete lines, and in front of the
same rest. -/
def SetsOff (template : String → String) : Prop :=
  ∃ front back, Text.IsComplete front.toList ∧
    ∀ text, text ≠ "" → template text = front ++ text ++ back

namespace SetsOff

variable {template : String → String}

theorem self : SetsOff id :=
  ⟨"", "", .inl rfl, fun text _ => by simp⟩

theorem append (off : SetsOff template) (last : String) :
    SetsOff fun text => template text ++ last := by
  obtain ⟨front, back, complete, around⟩ := off
  refine ⟨front, back ++ last, complete, fun text present => ?_⟩
  show template text ++ last = _
  rw [around text present, String.append_assoc]

theorem behind (off : SetsOff template) {first : String}
    (ends : first.toList.getLast? = some '\n') : SetsOff fun text => first ++ template text := by
  obtain ⟨front, back, complete, around⟩ := off
  refine ⟨first ++ front, back, ?_, fun text present => ?_⟩
  · rw [String.toList_append]
    exact Text.IsComplete.append (.inr ends) complete
  · show first ++ template text = _
    rw [around text present]
    simp only [String.append_assoc]

theorem unlessEmpty (off : SetsOff template) (empty : String) :
    SetsOff fun text => if text.isEmpty then empty else template text := by
  obtain ⟨front, back, complete, around⟩ := off
  refine ⟨front, back, complete, fun text present => ?_⟩
  show (if text.isEmpty then empty else template text) = _
  rw [if_neg fun none => present (String.isEmpty_iff.mp none)]
  exact around text present

end SetsOff

namespace Builtin

open Text (last_append)

variable {i : String} {k : Builtin} {h : Holder} {env : Surroundings} {top after : Usage}
  {own : Snippet} {input : String}

theorem setsOff_template (i : String) (b : Block) (k : Builtin) : SetsOff (k.template i b) := by
  cases k with
  | main => exact (SetsOff.self.behind rfl).append _
  | server =>
    have inner : SetsOff fun text => if text.isEmpty then "" else text ++ "\n" :=
      (SetsOff.self.append _).unlessEmpty _
    refine ((((((inner.behind ?_).append _).append _).append _).append _).append _).append _
    exact last_append _ (last_append _ rfl)
  | routeGroup =>
    have inner : SetsOff fun text => if text.isEmpty then "" else s!"{i}path := \"\"\n" ++ text :=
      (SetsOff.self.behind (last_append i rfl)).unlessEmpty _
    exact (inner.behind rfl).append _
  | route =>
    exact (((SetsOff.self.behind (last_append _ (last_append _ rfl))).append _).append _).append _
  | onShutdown =>
    exact ((SetsOff.self.behind (last_append _ (last_append _ rfl))).append _).append _
  | map =>
    exact ((SetsOff.self.behind rfl).append _).unlessEmpty _
  | _ => exact .self

/-- The statement input of a built-in. -/
def body? : Builtin → Option String
  | main | server => some "children"
  | routeGroup | onStart | onShutdown => some "NAME"
  | route => some "sub"
  | map => some "ints"
  | _ => none

theorem hasStatement_iff : k.blockType.hasStatement input = true ↔ k.body? = some input := by
  cases k <;>
    simp [blockType, body?, BlockType.hasStatement, Input.value, Input.statement, Input.field]

/-- A built-in fills its template with the code in its statement input. -/
theorem template_of_answers (steady : h.Steady) (declared : k.blockType.hasStatement input = true)
    (answered : (k.snippet env h).Answers top own after) :
    ∃ code mid, (h.sequenceCode input).Answers top code mid ∧
      own.code = k.template env.indent h.block (k.placed env.indent code) := by
  have indented : ∀ {name text : String} {mid : Usage},
      (h.indentedCode env name).Answers top text mid →
        ∃ code, (h.sequenceCode name).Answers top code mid ∧
          text = Text.indent env.indent code :=
    (Gen.answers_bind_pure (steady.sequenceCode _)).mp
  have named := hasStatement_iff.mp declared
  cases k with
  | main =>
    obtain rfl := Option.some.inj named
    obtain ⟨body, told, rfl⟩ := (main_answers steady).mp answered
    obtain ⟨code, inside, rfl⟩ := indented told
    exact ⟨code, _, inside, rfl⟩
  | server =>
    obtain rfl := Option.some.inj named
    obtain ⟨port, body, inner, accepted, told, -, rfl⟩ := (server_answers steady).mp answered
    obtain ⟨code, inside, rfl⟩ := indented told
    refine ⟨code, _, inside, ?_⟩
    unfold template
    rw [accepted]
    rfl
  | routeGroup =>
    obtain rfl := Option.some.inj named
    obtain ⟨routes, told, rfl⟩ := (routeGroup_answers steady).mp answered
    obtain ⟨code, inside, rfl⟩ := indented told
    exact ⟨code, _, inside, rfl⟩
  | route =>
    obtain rfl := Option.some.inj named
    obtain ⟨method, inner, mid, accepted, told, -, rfl⟩ := (route_answers steady).mp answered
    obtain ⟨code, inside, rfl⟩ := indented told
    refine ⟨code, _, inside, ?_⟩
    unfold template
    rw [accepted]
    rfl
  | onStart =>
    obtain rfl := Option.some.inj named
    obtain ⟨code, inside, rfl⟩ := (onStart_answers steady).mp answered
    exact ⟨code, _, inside, rfl⟩
  | onShutdown =>
    obtain rfl := Option.some.inj named
    obtain ⟨hooks, told, rfl⟩ := (onShutdown_answers steady).mp answered
    obtain ⟨code, inside, rfl⟩ := indented told
    exact ⟨code, _, inside, rfl⟩
  | map =>
    obtain rfl := Option.some.inj named
    obtain ⟨entries, told, rfl⟩ := (map_answers steady).mp answered
    obtain ⟨code, inside, rfl⟩ := indented told
    exact ⟨code, _, inside, rfl⟩
  | _ => exact nomatch named

/-! ### How templates end -/

theorem last_mapCode (entries : String) : (mapCode entries).toList.getLast? = some '}' := by
  unfold mapCode
  split
  · rfl
  · exact last_append _ rfl

theorem last_quote (text : String) : (Source.quote text).toList.getLast? = some '"' := by
  unfold Source.quote Source.quoteChars
  rw [String.toList_ofList, ← List.cons_append, List.getLast?_concat]

theorem not_isComplete_numberText {x : Binary64} (finite : x.isFinite = true) :
    ¬ Text.IsComplete x.numberText.toList := by
  rintro (empty | newline)
  · exact x.numberText_ne_empty (String.toList_eq_nil_iff.mp empty)
  · have mark := Binary64.isNumberMark_of_mem_numberText finite (List.mem_of_getLast? newline)
    exact absurd mark (by decide)

/-- A built-in other than a block for the start ends its lines exactly when it is no value. -/
theorem isComplete_iff (steady : h.Steady) (other : k ≠ onStart)
    (answered : (k.snippet env h).Answers top own after) :
    Text.IsComplete own.code.toList ↔ k.blockType.shape ≠ .value := by
  cases k with
  | onStart => exact absurd rfl other
  | require =>
    refine iff_of_true (.inl ?_) nofun
    obtain ⟨value, -, ⟨-, rfl⟩ | ⟨path, -, -, rfl⟩⟩ := (require_answers steady).mp answered
    · rfl
    · split <;> rfl
  | main =>
    obtain ⟨body, -, rfl⟩ := (main_answers steady).mp answered
    exact iff_of_true (.inr (last_append _ rfl)) nofun
  | server =>
    obtain ⟨port, body, inner, -, -, -, rfl⟩ := (server_answers steady).mp answered
    exact iff_of_true (.inr (last_append _ rfl)) nofun
  | routeGroup =>
    obtain ⟨routes, -, rfl⟩ := (routeGroup_answers steady).mp answered
    exact iff_of_true (.inr (last_append _ rfl)) nofun
  | route =>
    obtain ⟨method, inner, mid, -, -, -, rfl⟩ := (route_answers steady).mp answered
    exact iff_of_true (.inr (last_append _ rfl)) nofun
  | onShutdown =>
    obtain ⟨hooks, -, rfl⟩ := (onShutdown_answers steady).mp answered
    exact iff_of_true (.inr (last_append _ rfl)) nofun
  | mapField =>
    obtain ⟨value, -, rfl⟩ := (mapField_answers steady).mp answered
    exact iff_of_true (.inr (last_append _ rfl)) nofun
  | line =>
    refine iff_of_true ?_ nofun
    have made := line_answers.mp answered
    split at made
    · obtain ⟨rfl, -⟩ := made
      exact .inl rfl
    · obtain ⟨rfl, -⟩ := made
      exact .inr (last_append _ rfl)
  | handler =>
    refine iff_of_true ?_ nofun
    have made := handler_answers.mp answered
    split at made
    · obtain ⟨rfl, -⟩ := made
      exact .inl rfl
    · obtain ⟨rfl, -⟩ := made
      exact .inr (last_append _ rfl)
  -- The four values leave their last line open.
  | map =>
    obtain ⟨entries, -, rfl⟩ := (map_answers steady).mp answered
    exact iff_of_false (Text.not_isComplete_of_last (last_mapCode entries) (by decide)) (· rfl)
  | text =>
    obtain ⟨rfl, -⟩ := text_answers.mp answered
    exact iff_of_false (Text.not_isComplete_of_last (last_quote _) (by decide)) (· rfl)
  | number =>
    obtain ⟨x, -, finite, rfl, -⟩ := number_answers.mp answered
    exact iff_of_false (not_isComplete_numberText finite) (· rfl)
  | boolean =>
    obtain ⟨rfl, -⟩ := boolean_answers.mp answered
    have written : (if h.block.flagD "BOOL" true then "true" else "false").toList.getLast? =
        some 'e' := by
      split <;> rfl
    exact iff_of_false (Text.not_isComplete_of_last written (by decide)) (· rfl)

end Builtin

theorem CallItem.isComplete_code (item : CallItem) (arguments : List (Parameter × String)) :
    Text.IsComplete (item.code arguments).toList := by
  unfold code
  split
  · exact .inr (Text.last_append _ rfl)
  · exact .inr (Text.last_append _ rfl)

theorem LiteralItem.last_code (item : LiteralItem) (address : Bool)
    (arguments : List (Parameter × String)) :
    (item.code address arguments).toList.getLast? = some '}' :=
  Text.last_append _ rfl

/-! ### Blocks -/

namespace Catalogue

/-- No value stands in a statement input of the block or of a block that is reached from it. -/
def KeepsValuesOut (c : Catalogue) (b : Block) : Prop :=
  ∀ r input child, c.Reaches b r → c.StandsIn r input child → ¬ c.HasShape child .value

theorem KeepsValuesOut.of_standsIn {c : Catalogue} {b child : Block} {input : String}
    (kept : c.KeepsValuesOut b) (stands : c.StandsIn b input child) : c.KeepsValuesOut child := by
  obtain ⟨listing, listed, declared, mem⟩ := stands
  exact fun r name inner reaches => kept r name inner (.statement listed declared mem reaches)

theorem KeepsValuesOut.of_reaches {c : Catalogue} {b r : Block} (kept : c.KeepsValuesOut b)
    (reaches : c.Reaches b r) : c.KeepsValuesOut r := by
  induction reaches with
  | self b => exact kept
  | value listed declared found _ ih =>
    exact ih fun r name inner reaches =>
      kept r name inner (.value listed declared found reaches)
  | statement listed declared mem _ ih =>
    exact ih fun r name inner reaches =>
      kept r name inner (.statement listed declared mem reaches)

end Catalogue

namespace Compiler

variable {c : Compiler} {b r : Block} {s : Snippet}

theorem isComplete_of_snippets {bs : List Block} {all : List Snippet}
    (made : c.snippets bs = .ok all)
    (each : ∀ child ∈ bs, ∀ t, (c.compile child).outcome = .ok t → Text.IsComplete t.code.toList) :
    ∀ t ∈ all, Text.IsComplete t.code.toList := by
  intro t mem
  obtain ⟨child, inside, generated⟩ := mem_of_snippets made mem
  exact each child inside t generated

/-- **Complete lines.** Where no value stands in a statement input, the code of a block that is
generated is complete lines exactly when the block is no value. -/
theorem isComplete_iff (loaded : c.catalogue.Loaded) (b : Block) :
    c.catalogue.KeepsValuesOut b → ∀ s, (c.compile b).outcome = .ok s →
      (Text.IsComplete s.code.toList ↔ ¬ c.catalogue.HasShape b .value) := by
  induction b using Block.induction with
  | step b values statements =>
    intro kept s made
    cases listed : c.catalogue.get? b.kind with
    | none =>
      obtain ⟨-, rfl⟩ := (outcome_of_unlisted listed).mp made
      refine iff_of_true (.inl rfl) ?_
      rintro ⟨listing, there, -⟩
      exact nomatch there.symm.trans listed
    | some listing =>
      obtain ⟨own, after, answered, rfl⟩ := (outcome_of_listed listed).mp made
      show Text.IsComplete own.code.toList ↔ _
      have steady := c.steady_holder b
      rw [Catalogue.hasShape_iff listed]
      have inOrder := loaded.blockType_eq listed
      obtain ⟨blockType, generator⟩ := listing
      obtain rfl : blockType = generator.blockType := inOrder
      cases generator with
      | builtin k =>
        by_cases start : k = .onStart
        · obtain rfl := start
          obtain ⟨code, told, rfl⟩ := (Builtin.onStart_answers steady).mp answered
          obtain ⟨all, done, rfl, -⟩ := sequenceCode_answers.mp told
          refine iff_of_true (Text.isComplete_join ?_) nofun
          have inside := isComplete_of_snippets done fun child mem t generated => by
            have stands : c.catalogue.StandsIn b "NAME" child := ⟨_, listed, rfl, mem⟩
            exact (statements "NAME" child mem (kept.of_standsIn stands) t generated).mpr
              (kept b "NAME" child (.self b) stands)
          exact List.forall_mem_map.mpr inside
        · exact Builtin.isComplete_iff steady start answered
      | call item =>
        obtain ⟨arguments, -, rfl⟩ := (item.snippet_answers steady).mp answered
        exact iff_of_true (item.isComplete_code arguments) nofun
      | literal item =>
        obtain ⟨arguments, -, rfl⟩ := (item.snippet_answers steady).mp answered
        exact iff_of_false
          (Text.not_isComplete_of_last (item.last_code _ arguments) (by decide)) (· rfl)
      | recipe recipe => exact absurd rfl (loaded.not_recipe listed recipe)

/-- **Statements stand on lines of their own.** In a tree whose statement inputs hold no values,
with packages taken in, any indentation and in both modes, let a block that is reached be generated,
on any stack:

* when it is no value, its code is empty or ends with a newline; when it is one, its code is not
  empty and does not end with a newline;
* when its type declares a statement input, the codes of the blocks in it, each as the template
  places it, are complete lines, and the code of the block is its template filled with them. Unless
  they are all empty, the first of them starts a line, each one starts a line behind those before
  it, and what the template has behind them starts a line as well. -/
theorem own_lines (loaded : c.catalogue.Loaded) (kept : c.catalogue.KeepsValuesOut b)
    (reaches : c.catalogue.Reaches b r) {frames : List Usage}
    (made : ((c.compile r).run frames).1 = .ok s) :
    (¬ c.catalogue.HasShape r .value → s.code = "" ∨ s.code.toList.getLast? = some '\n') ∧
      (c.catalogue.HasShape r .value → s.code ≠ "" ∧ s.code.toList.getLast? ≠ some '\n') ∧
      ∀ listing input, c.catalogue.get? r.kind = some listing →
        listing.blockType.hasStatement input = true →
          ∃ k all front back, listing.generator = .builtin k ∧
            (∀ code, code ≠ "" → k.template c.indent r code = front ++ code ++ back) ∧
            c.snippets (r.sequenceIn input) = .ok all ∧
            let pieces := all.map fun t => k.placed c.indent t.code
            s.code = k.template c.indent r (String.join pieces) ∧
              (∀ piece ∈ pieces, Text.IsComplete piece.toList) ∧
              (∀ before piece behind, pieces = before ++ piece :: behind →
                Text.IsComplete (front ++ String.join before).toList) ∧
              Text.IsComplete (front ++ String.join pieces).toList := by
  have lines := isComplete_iff loaded r (kept.of_reaches reaches) s (outcome_of_run made)
  refine ⟨fun other => ?_, fun value => ?_, fun listing input listed declared => ?_⟩
  · exact (lines.mpr other).imp_left String.toList_eq_nil_iff.mp
  · have unfinished : ¬ Text.IsComplete s.code.toList := fun complete => lines.mp complete value
    exact ⟨fun empty => unfinished (.inl (String.toList_eq_nil_iff.mpr empty)),
      fun ends => unfinished (.inr ends)⟩
  · obtain ⟨k, -, builtin, -⟩ :=
      loaded.builtin_of_takesStatements ⟨listing, input, listed, declared⟩
    obtain rfl := Option.some.inj (listed.symm.trans builtin)
    obtain ⟨own, after, answered, rfl⟩ := (outcome_of_listed listed).mp (outcome_of_run made)
    obtain ⟨code, mid, told, written⟩ :=
      Builtin.template_of_answers (c.steady_holder r) declared answered
    obtain ⟨all, done, rfl, -⟩ := sequenceCode_answers.mp told
    obtain ⟨front, back, opens, around⟩ := k.setsOff_template c.indent r
    have complete : ∀ t ∈ all, Text.IsComplete t.code.toList :=
      isComplete_of_snippets done fun child mem t generated =>
        have stands : c.catalogue.StandsIn r input child := ⟨_, listed, declared, mem⟩
        (isComplete_iff loaded child ((kept.of_reaches reaches).of_standsIn stands) t generated).mpr
          (kept r input child reaches stands)
    have pieces : ∀ piece ∈ all.map (fun t => k.placed c.indent t.code),
        Text.IsComplete piece.toList :=
      List.forall_mem_map.mpr fun t mem => Builtin.isComplete_placed (complete t mem)
    -- Complete lines behind the front of the template.
    have behind : ∀ some : List String, (∀ piece ∈ some, Text.IsComplete piece.toList) →
        Text.IsComplete (front ++ String.join some).toList := by
      intro some each
      rw [String.toList_append]
      exact opens.append (Text.isComplete_join each)
    refine ⟨k, all, front, back, rfl, around, done, ?_, pieces, ?_, behind _ pieces⟩
    · show own.code = _
      rw [written, Builtin.placed_join (List.forall_mem_map.mpr complete), List.map_map]
      rfl
    · intro before piece rest whole
      refine behind before fun other mem => pieces other ?_
      rw [whole]
      exact List.mem_append_left _ mem

end Compiler

/-- Whether the statements directly in the block are all of built-in types, and none is a value. -/
def Block.listsBuiltinStatements (b : Block) : Bool :=
  b.statements.all fun entry => entry.2.all fun child =>
    Builtin.all.any fun k => k.blockType.id = child.kind && k.blockType.shape ≠ .value

theorem Catalogue.keepsValuesOut_ofBuiltins {b : Block}
    (lists : b.everywhere Block.listsBuiltinStatements = true) :
    Catalogue.ofBuiltins.KeepsValuesOut b := by
  rintro r input child reaches ⟨-, -, -, mem⟩ value
  obtain ⟨entry, standing, inside⟩ := Block.exists_mem_of_mem_sequenceIn mem
  have here := reaches.contains.of_everywhere lists
  obtain ⟨k, -, fits⟩ :=
    List.any_eq_true.mp (List.all_eq_true.mp (List.all_eq_true.mp here entry standing) child inside)
  obtain ⟨kind, noValue⟩ := Bool.and_eq_true_iff.mp fits
  have listed := get?_ofBuiltins_id k
  rw [of_decide_eq_true kind] at listed
  exact of_decide_eq_true noValue ((hasShape_iff listed).mp value)

namespace Compiler

/-- A main function with two lines in it, indented by two spaces: its code ends its last line, and
its statements, the lines, stand on lines of their own. -/
theorem own_lines_of_main :
    let line (text : String) : Block :=
      { id := text, kind := "go", fields := [("line", .text text)] }
    let m : Block :=
      { id := "m", kind := "main", statements := [("children", [line "one()", line "two()"])] }
    let c : Compiler := { catalogue := .ofBuiltins, indent := "  " }
    let s := Snippet.inLines "func main() \x7b\n  one()\n  two()\n\x7d\n"
    c.catalogue.KeepsValuesOut m ∧ ((c.compile m).run []).1 = .ok s ∧
      (s.code = "" ∨ s.code.toList.getLast? = some '\n') := by
  intro line m c s
  have kept : c.catalogue.KeepsValuesOut m := Catalogue.keepsValuesOut_ofBuiltins (by decide)
  have made : ((c.compile m).run []).1 = .ok s := by decide +kernel
  have statement : ¬ c.catalogue.HasShape m .value := fun value =>
    nomatch (Catalogue.hasShape_iff (Catalogue.get?_ofBuiltins_id .main)).mp value
  exact ⟨kept, made, (own_lines .builtins kept (.self m) made).1 statement⟩

end Compiler

end Blockwork
