import Mathlib.Control.Monad.Basic
import Blockwork.Proofs.Block.Verbatim
import Blockwork.Proofs.Decimal.NumberText
import Blockwork.Proofs.Generation.Answers
import Blockwork.Proofs.Generation.Templates
import Blockwork.Proofs.Snippet.Usage

/-!
# Recorded packages cover the code

Every name that generated code qualifies is among the packages that were recorded for it, but
for two that the templates of servers declare themselves: the server `h` and the request `r`.

* **one template** — the modules before this one: a template passes the scanner when its pieces
  do;
* **one block** — `Compiler.covered`: by induction over blocks, what the inputs of a block
  generate passes with the frame that they leave, and so does the block;
* **the code** — `Compiler.qualifiers_covered`: what holds on every stack and in both modes.

Numbers and truth values are out of place among statements. Statement inputs miss the check by
which value slots refuse what is no value, and let them in unreported. Their code ends in the
middle of a token, so that it runs into what stands behind it, and the name that comes out was
never recorded (`Compiler.qualifiers_not_covered_behind_bare`).
-/

namespace Blockwork

open Source

variable {name : String}

/-- A name that code with this usage may qualify: a recorded package, the server that the main
function of a server declares, or the request that handlers get. -/
def Usage.Covers (u : Usage) (name : String) : Prop :=
  name ∈ u.packages ∨ name = "h" ∨ name = "r"

namespace Usage

variable {a b u : Usage}

theorem Covers.of_mem (mem : name ∈ u.packages) : u.Covers name := .inl mem

theorem Covers.mono (covers : a.Covers name) (grows : ∀ name ∈ a.packages, name ∈ b.packages) :
    b.Covers name := by
  rcases covers with mem | declared
  · exact .inl (grows name mem)
  · exact .inr declared

theorem Covers.append_left (covers : a.Covers name) : (a ++ b).Covers name :=
  covers.mono fun _ mem => mem_packages_append.mpr (.inl mem)

theorem Covers.append_right (covers : b.Covers name) : (a ++ b).Covers name :=
  covers.mono fun _ mem => mem_packages_append.mpr (.inr mem)

end Usage

/-- Whether the blocks of a type generate a bare number or word. -/
def Catalogue.isBare (c : Catalogue) (kind : String) : Bool :=
  match c.get? kind with
  | some ⟨_, .builtin .number⟩ | some ⟨_, .builtin .boolean⟩ => true
  | _ => false

namespace Compiler

variable {c : Compiler} {b : Block} {input code : String} {outer : Precedence}
  {top after : Usage} {snippets : List Snippet}

theorem mem_packages_usageAfter :
    name ∈ (usageAfter top snippets).packages ↔
      name ∈ top.packages ∨ ∃ s ∈ snippets, name ∈ s.usage.packages := by
  induction snippets generalizing top with
  | nil => simp [usageAfter]
  | cons s rest ih =>
    show name ∈ (usageAfter (top ++ s.usage) rest).packages ↔ _
    rw [ih, Usage.mem_packages_append, or_assoc]
    simp

/-! ### The inputs of a block -/

/-- What the blocks in the inputs of a block generate is covered by what they record. -/
structure InputsCovered (c : Compiler) (b : Block) : Prop where
  values : ∀ input child, b.plugged? input = some child →
    ∀ s, (c.compile child).outcome = .ok s → IsValue s.usage.Covers s.code
  statements : ∀ input, ∀ child ∈ b.sequenceIn input,
    ∀ s, (c.compile child).outcome = .ok s → Passes s.usage.Covers s.code

theorem isValue_inSlot {s : Snippet} (value : IsValue s.usage.Covers s.code)
    (stands : s.inSlot? outer = some code) : IsValue s.usage.Covers code := by
  unfold Snippet.inSlot? at stands
  split at stands
  · obtain rfl := Option.some.inj stands
    exact Passes.empty.isValue
  · obtain ⟨order, -, rfl⟩ := Option.map_eq_some_iff.mp stands
    split
    · have closing : ")" = String.singleton ')' ++ "" := by decide
      have opened : Passes s.usage.Covers "(" := Passes.plain rfl (by decide)
      have bracketed := opened.append (value.before (by decide) closing Passes.empty)
      rw [← String.append_assoc] at bracketed
      exact bracketed.isValue
    · exact value

namespace InputsCovered

theorem valueCode (inputs : InputsCovered c b)
    (answered : ((c.holder b).valueCode input outer).Answers top code after) :
    IsValue after.Covers code ∧ ∀ name ∈ top.packages, name ∈ after.packages := by
  rcases valueCode_answers.mp answered with ⟨-, rfl, rfl⟩ | ⟨child, s, found, made, stands, rfl⟩
  · exact ⟨Passes.empty.isValue, fun _ mem => mem⟩
  · refine ⟨?_, fun _ mem => Usage.mem_packages_append.mpr (.inl mem)⟩
    have value := isValue_inSlot (inputs.values input child found s made) stands
    exact value.mono fun _ covers => covers.append_right

theorem sequenceCode (inputs : InputsCovered c b)
    (answered : ((c.holder b).sequenceCode input).Answers top code after) :
    Passes after.Covers code := by
  obtain ⟨snippets, made, rfl, rfl⟩ := sequenceCode_answers.mp answered
  refine Passes.join ?_
  intro code mem
  obtain ⟨s, inside, rfl⟩ := List.mem_map.mp mem
  obtain ⟨child, standing, generated⟩ := mem_of_snippets made inside
  refine (inputs.statements input child standing s generated).mono ?_
  intro name covers
  exact covers.mono fun _ recorded => mem_packages_usageAfter.mpr (.inr ⟨s, inside, recorded⟩)

theorem indentedCode (inputs : InputsCovered c b) {env : Surroundings}
    (spaces : ∀ ch ∈ env.indent.toList, ch = ' ' ∨ ch = '\t')
    (answered : ((c.holder b).indentedCode env input).Answers top code after) :
    Passes after.Covers code := by
  unfold Holder.indentedCode at answered
  obtain ⟨inner, told, rfl⟩ :=
    (Gen.answers_bind_pure ((c.steady_holder b).sequenceCode input)).mp answered
  exact (inputs.sequenceCode told).indent spaces

theorem arguments (inputs : InputsCovered c b) {parameters : List Parameter}
    {arguments : List (Parameter × String)}
    (answered : ((c.holder b).arguments parameters).Answers top arguments after) :
    (∀ argument ∈ arguments, argument.1 ∈ parameters ∧ IsValue after.Covers argument.2) ∧
      ∀ name ∈ top.packages, name ∈ after.packages := by
  induction parameters generalizing top arguments with
  | nil =>
    obtain ⟨rfl, rfl⟩ := Holder.arguments_nil_answers.mp answered
    exact ⟨nofun, fun _ mem => mem⟩
  | cons p rest ih =>
    obtain ⟨value, mid, others, told, later, rfl⟩ :=
      (Holder.arguments_cons_answers (c.steady_holder b)).mp answered
    obtain ⟨isValue, grows⟩ := inputs.valueCode told
    obtain ⟨all, grows'⟩ := ih later
    refine ⟨fun argument mem => ?_, fun name mem => grows' name (grows name mem)⟩
    split at mem
    · obtain ⟨known, isValue'⟩ := all argument mem
      exact ⟨List.mem_cons_of_mem _ known, isValue'⟩
    · rcases List.mem_cons.mp mem with rfl | other
      · refine ⟨List.mem_cons_self, ?_⟩
        exact (Builtin.isValue_requote isValue).mono fun _ covers => covers.mono grows'
      · obtain ⟨known, isValue'⟩ := all argument other
        exact ⟨List.mem_cons_of_mem _ known, isValue'⟩

end InputsCovered

/-! ### Blocks -/

variable {own : Snippet} {env : Surroundings}

theorem mem_packages_noteAll {text : String} :
    name ∈ (Builtin.noteAll top text).packages ↔ name ∈ qualifiers text ∨ name ∈ top.packages :=
  Usage.mem_packages_foldl_note

theorem covers_of_relyingOn {s : Snippet} {names : List String} (made : own = s.relyingOn names)
    (mem : name ∈ names) : (own.usage ++ after).Covers name := by
  rw [made]
  exact (Usage.Covers.of_mem (Snippet.mem_packages_relyingOn.mpr (.inl mem))).append_left

theorem covers_of_noteAll {text : String} (noted : after = Builtin.noteAll top text)
    (mem : name ∈ qualifiers text) : (own.usage ++ after).Covers name := by
  rw [noted]
  exact (Usage.Covers.of_mem (mem_packages_noteAll.mpr (.inl mem))).append_right

theorem passes_own (passes : Passes after.Covers code) :
    Passes (own.usage ++ after).Covers code :=
  passes.mono fun _ covers => covers.append_right

namespace InputsCovered

theorem server (inputs : InputsCovered c b)
    (spaces : ∀ ch ∈ env.indent.toList, ch = ' ' ∨ ch = '\t')
    (answered : (Builtin.serverSnippet env (c.holder b)).Answers {} own after) :
    Passes (own.usage ++ after).Covers own.code := by
  obtain ⟨port, body, mid, -, told, rfl, rfl⟩ :=
    (Builtin.server_answers (c.steady_holder b)).mp answered
  have grows : ∀ name, name = "http" ∨ name = "log" ∨ name ∈ mid.packages →
      name ∈ ((mid.note "http").note "log").packages := by
    rintro name (rfl | rfl | mem)
    · exact Usage.mem_packages_note.mpr (.inr (Usage.mem_packages_note.mpr (.inl rfl)))
    · exact Usage.mem_packages_note.mpr (.inl rfl)
    · exact Usage.mem_packages_note.mpr (.inr (Usage.mem_packages_note.mpr (.inr mem)))
  have http : ((mid.note "http").note "log").Covers "http" := .of_mem (grows _ (.inl rfl))
  have log : ((mid.note "http").note "log").Covers "log" := .of_mem (grows _ (.inr (.inl rfl)))
  have passes : Passes ((mid.note "http").note "log").Covers body :=
    (inputs.indentedCode spaces told).mono fun _ covers =>
      covers.mono fun name mem => grows name (.inr (.inr mem))
  exact Builtin.passes_serverCode (Passes.spaces spaces) (Passes.quote _) (passes_own passes)
    http.append_right log.append_right (.inr (.inl rfl))

theorem route (inputs : InputsCovered c b)
    (spaces : ∀ ch ∈ env.indent.toList, ch = ' ' ∨ ch = '\t')
    (closed : IsClosed (b.textD "handler" ""))
    (answered : (Builtin.routeSnippet env (c.holder b)).Answers {} own after) :
    Passes (own.usage ++ after).Covers own.code := by
  obtain ⟨method, body, mid, -, told, noted, made⟩ :=
    (Builtin.route_answers (c.steady_holder b)).mp answered
  rw [block_holder] at noted
  have strings : (own.usage ++ after).Covers "strings" := covers_of_relyingOn made (by simp)
  have passes : Passes after.Covers body := by
    refine (inputs.indentedCode spaces told).mono fun _ covers => covers.mono fun _ mem => ?_
    rw [noted]
    exact mem_packages_noteAll.mpr (.inr mem)
  have written : own.code = Builtin.routeCode env.indent
      (quote (b.textD "path" Builtin.defaultPath)) (quote method) body
      (Text.trim (b.textD "handler" "")) := by
    rw [made, Snippet.code_relyingOn, Snippet.code_inLines, block_holder]
  rw [written]
  exact Builtin.passes_routeCode spaces (Passes.quote _) (Passes.quote _) (passes_own passes)
    closed (fun _ mem => covers_of_noteAll noted mem) strings (.inr (.inr rfl))

theorem handler (closed : IsClosed (b.textD "func" ""))
    (answered : (Builtin.handlerSnippet (c.holder b)).Answers {} own after) :
    Passes (own.usage ++ after).Covers own.code := by
  rw [Builtin.handler_answers] at answered
  split at answered
  · obtain ⟨rfl, rfl⟩ := answered
    exact Passes.empty
  · obtain ⟨made, noted⟩ := answered
    rw [block_holder] at noted
    have http : (own.usage ++ after).Covers "http" := covers_of_relyingOn made (by simp)
    have written : own.code = Builtin.handlerCode (quote (b.textD "path" "/"))
        (Text.trim (b.textD "func" "")) := by
      rw [made, Snippet.code_relyingOn, Snippet.code_inLines, block_holder]
    rw [written]
    exact Builtin.passes_handlerCode (Passes.quote _) closed
      (fun _ mem => covers_of_noteAll noted mem) http

/-- What a built-in writes with inputs that are covered is covered, and passes unless it is a
bare number or word. -/
theorem builtin {k : Builtin} (inputs : InputsCovered c b)
    (spaces : ∀ ch ∈ env.indent.toList, ch = ' ' ∨ ch = '\t')
    (line : k = .line → IsClosed (b.textD "line" ""))
    (route : k = .route → IsClosed (b.textD "handler" ""))
    (handler : k = .handler → IsClosed (b.textD "func" ""))
    (noNumber : k ≠ .number) (noBoolean : k ≠ .boolean)
    (answered : (k.snippet env (c.holder b)).Answers {} own after) :
    Passes (own.usage ++ after).Covers own.code := by
  have steady := c.steady_holder b
  cases k with
  | require =>
    obtain ⟨value, -, ⟨-, rfl⟩ | ⟨path, -, -, rfl⟩⟩ := (Builtin.require_answers steady).mp answered
    · exact Passes.empty
    · split <;> exact Passes.empty
  | main =>
    obtain ⟨body, told, rfl⟩ := (Builtin.main_answers steady).mp answered
    exact Builtin.passes_mainCode (passes_own (inputs.indentedCode spaces told))
  | server => exact inputs.server spaces answered
  | routeGroup =>
    obtain ⟨routes, told, made⟩ := (Builtin.routeGroup_answers steady).mp answered
    have http : (own.usage ++ after).Covers "http" := covers_of_relyingOn made (by simp)
    have passes := Builtin.passes_routeGroupCode (Passes.spaces spaces)
      (passes_own (inputs.indentedCode spaces told)) http
    rw [made] at passes ⊢
    exact passes
  | route => exact inputs.route spaces (route rfl) answered
  | onStart =>
    obtain ⟨body, told, rfl⟩ := (Builtin.onStart_answers steady).mp answered
    exact passes_own (inputs.sequenceCode told)
  | onShutdown =>
    obtain ⟨hooks, told, made⟩ := (Builtin.onShutdown_answers steady).mp answered
    have passes : Passes (own.usage ++ after).Covers (Builtin.shutdownCode env.indent hooks) :=
      Builtin.passes_shutdownCode (Passes.spaces spaces)
        (passes_own (inputs.indentedCode spaces told))
        (fun _ mem => covers_of_relyingOn made mem) (.inr (.inl rfl))
    rw [made] at passes ⊢
    exact passes
  | line =>
    have lines := Builtin.line_answers.mp answered
    split at lines
    · obtain ⟨rfl, rfl⟩ := lines
      exact Passes.empty
    · obtain ⟨rfl, noted⟩ := lines
      rw [block_holder] at noted
      exact (line rfl).passes_newline fun _ mem => covers_of_noteAll noted mem
  | map =>
    obtain ⟨entries, told, rfl⟩ := (Builtin.map_answers steady).mp answered
    exact Builtin.passes_mapCode (passes_own (inputs.indentedCode spaces told))
  | mapField =>
    obtain ⟨value, told, rfl⟩ := (Builtin.mapField_answers steady).mp answered
    have isValue := (inputs.valueCode told).1
    exact Builtin.passes_mapFieldCode (Passes.quote _)
      (isValue.mono fun _ covers => covers.append_right)
  | handler => exact InputsCovered.handler (c := c) (handler rfl) answered
  | text =>
    obtain ⟨rfl, rfl⟩ := Builtin.text_answers.mp answered
    exact Passes.quote _
  | number => exact absurd rfl noNumber
  | boolean => exact absurd rfl noBoolean

/-- Calls of package functions are covered. -/
theorem call {item : CallItem} (inputs : InputsCovered c b) (faultless : item.fault? = none)
    (answered : (item.snippet (c.holder b)).Answers {} own after) :
    Passes (own.usage ++ after).Covers own.code := by
  obtain ⟨arguments, told, made⟩ := (item.snippet_answers (c.steady_holder b)).mp answered
  obtain ⟨values, -⟩ := inputs.arguments told
  have passes : Passes (own.usage ++ after).Covers (item.code arguments) :=
    CallItem.passes_code faultless (covers_of_relyingOn made (List.mem_singleton_self _))
      fun argument mem => (values argument mem).2.mono fun _ covers => covers.append_right
  rw [made] at passes ⊢
  exact passes

/-- Literals of package structs are covered. -/
theorem literal {item : LiteralItem} (inputs : InputsCovered c b)
    (faultless : item.fault? = none)
    (answered : (item.snippet (c.holder b)).Answers {} own after) :
    Passes (own.usage ++ after).Covers own.code := by
  obtain ⟨arguments, told, made⟩ := (item.snippet_answers (c.steady_holder b)).mp answered
  obtain ⟨values, -⟩ := inputs.arguments told
  have passes : Passes (own.usage ++ after).Covers
      (item.code (b.flagD LiteralItem.addressField true) arguments) :=
    LiteralItem.passes_code faultless (covers_of_relyingOn made (List.mem_singleton_self _))
      (fun argument mem => (values argument mem).1)
      fun argument mem => (values argument mem).2.mono fun _ covers => covers.append_right
  rw [made] at passes ⊢
  exact passes

end InputsCovered

/-- Every block of a tree is covered by its usage when the code that users enter is closed and
no bare number or word stands among statements. -/
theorem covered (loaded : c.catalogue.Loaded)
    (spaces : ∀ ch ∈ c.indent.toList, ch = ' ' ∨ ch = '\t') (b : Block)
    (closed : ∀ r, b.Contains r → ∀ text ∈ r.verbatim, IsClosed text)
    (placed : ∀ r, b.Contains r → ∀ input, ∀ child ∈ r.sequenceIn input,
      c.catalogue.isBare child.kind = false)
    (s : Snippet) (made : (c.compile b).outcome = .ok s) :
    IsValue s.usage.Covers s.code ∧
      (c.catalogue.isBare b.kind = false → Passes s.usage.Covers s.code) := by
  induction b using Block.induction generalizing s with
  | step b values statements =>
    have inputs : InputsCovered c b := by
      refine ⟨fun input child found s made => ?_, fun input child mem s made => ?_⟩
      · exact (values input child found (fun r inside => closed r (.value found inside))
          (fun r inside => placed r (.value found inside)) s made).1
      · have bare := placed b (.self b) input child mem
        exact (statements input child mem (fun r inside => closed r (.statement mem inside))
          (fun r inside => placed r (.statement mem inside)) s made).2 bare
    have here := closed b (.self b)
    cases listed : c.catalogue.get? b.kind with
    | none =>
      obtain ⟨-, rfl⟩ := (outcome_of_unlisted listed).mp made
      exact ⟨Passes.empty.isValue, fun _ => Passes.empty⟩
    | some listing =>
      obtain ⟨own, inner, answered, rfl⟩ := (outcome_of_listed listed).mp made
      obtain ⟨blockType, generator⟩ := listing
      cases generator with
      | builtin k =>
        have verbatim := loaded.builtin_verbatim listed
        by_cases number : k = .number
        · subst number
          obtain ⟨x, -, finite, rfl, rfl⟩ := Builtin.number_answers.mp answered
          refine ⟨isValue_of_numberMarks fun _ mem => ?_, fun bare => ?_⟩
          · exact Binary64.isNumberMark_of_mem_numberText finite mem
          · simp [Catalogue.isBare, listed] at bare
        · by_cases boolean : k = .boolean
          · subst boolean
            obtain ⟨rfl, rfl⟩ := Builtin.boolean_answers.mp answered
            refine ⟨?_, fun bare => ?_⟩
            · rw [Snippet.code_expression]
              split
              · exact isValue_word "true" (by decide)
              · exact isValue_word "false" (by decide)
            · simp [Catalogue.isBare, listed] at bare
          · have passes := inputs.builtin spaces (fun line => here _ (verbatim.1 line))
              (fun route => here _ (verbatim.2.1 route))
              (fun handler => here _ (verbatim.2.2 handler)) number boolean answered
            exact ⟨passes.isValue, fun _ => passes⟩
      | call item =>
        have passes := inputs.call (loaded.listed listed).2.2 answered
        exact ⟨passes.isValue, fun _ => passes⟩
      | literal item =>
        have passes := inputs.literal (loaded.listed listed).2.2 answered
        exact ⟨passes.isValue, fun _ => passes⟩
      | recipe recipe => exact absurd rfl (loaded.not_recipe listed recipe)

/-- **Recorded packages cover the code.** Whatever stands on the stack and in either mode: when
a block generates code, every name that the code qualifies was recorded, or is one of the two
that templates declare. The user's code has to close its literals and comments, and no bare
number or word may stand among statements. -/
theorem qualifiers_covered (loaded : c.catalogue.Loaded)
    (spaces : ∀ ch ∈ c.indent.toList, ch = ' ' ∨ ch = '\t')
    (closed : ∀ r, b.Contains r → ∀ text ∈ r.verbatim, IsClosed text)
    (placed : ∀ r, b.Contains r → ∀ input, ∀ child ∈ r.sequenceIn input,
      c.catalogue.isBare child.kind = false)
    {frames : List Usage} {s : Snippet} (made : ((c.compile b).run frames).1 = .ok s) :
    ∀ name ∈ qualifiers s.code, name ∈ s.usage.packages ∨ name = "h" ∨ name = "r" := by
  have alone := outcome_of_run made
  have value := (covered loaded spaces b closed placed s alone).1
  intro name mem
  obtain ⟨found, inside, rfl⟩ := mem_qualifiers.mp mem
  exact value.finds found inside

/-- A main function with a block in front of a line of code. -/
def mainWithLine (first : Block) (line : String) : Block :=
  { id := "m", kind := "main",
    statements := [("children",
      [first, { id := "g", kind := "go", fields := [("line", .text line)] }])] }

theorem isClosed_of_everywhere
    (tested : b.everywhere (fun r => r.verbatim.all fun text => decide (IsClosed text)) = true)
    (r : Block) (inside : b.Contains r) : ∀ text ∈ r.verbatim, IsClosed text := by
  intro text mem
  exact of_decide_eq_true (List.all_eq_true.mp (inside.of_everywhere tested) text mem)

theorem qualifiers_covered_behind_handler :
    "fmt" ∈ qualifiers
        "func main() \x7b\n\thttp.HandleFunc(\"/\", api.Root)\n\tfmt.Println()\n\x7d\n" ∧
      ("fmt" ∈ NameSet.ofList ["http", "api", "fmt"] ∨ "fmt" = "h" ∨ "fmt" = "r") := by
  let c : Compiler := { catalogue := .ofBuiltins }
  let first : Block := { id := "w", kind := "handler", fields := [("func", .text "api.Root")] }
  let b := mainWithLine first "fmt.Println()"
  have placed : ∀ r, b.Contains r → ∀ input, ∀ child ∈ r.sequenceIn input,
      c.catalogue.isBare child.kind = false := by
    intro r inside input child mem
    have tested : b.everywhere (fun r => r.statements.all fun entry =>
        entry.2.all fun child => !c.catalogue.isBare child.kind) = true := by decide
    obtain ⟨entry, standing, mem⟩ := Block.exists_mem_of_mem_sequenceIn mem
    have all := List.all_eq_true.mp (inside.of_everywhere tested) entry standing
    simpa using List.all_eq_true.mp all child mem
  have made : ((c.compile b).run []).1 = .ok
      { code :=
          "func main() \x7b\n\thttp.HandleFunc(\"/\", api.Root)\n\tfmt.Println()\n\x7d\n"
        usage := { packages := NameSet.ofList ["http", "api", "fmt"] } } := by decide +kernel
  have covered := qualifiers_covered .builtins (Text.forall_mem_of_all (by decide))
    (isClosed_of_everywhere (by decide)) placed made
  have found : "fmt" ∈ qualifiers
      "func main() \x7b\n\thttp.HandleFunc(\"/\", api.Root)\n\tfmt.Println()\n\x7d\n" := by decide
  exact ⟨found, covered "fmt" found⟩

/-- A truth value or a number among statements is out of place and not reported. Its code runs
into the line behind it, whose first name then is not the one that was recorded. -/
theorem qualifiers_not_covered_behind_bare :
    ∃ (c : Compiler) (truth number : Block) (s t : Snippet), c.catalogue.Loaded ∧
      (∀ ch ∈ c.indent.toList, ch = ' ' ∨ ch = '\t') ∧
      (∀ r, (mainWithLine truth "fmt.Println()").Contains r →
        ∀ text ∈ r.verbatim, IsClosed text) ∧
      (∀ r, (mainWithLine number "a_b.Println()").Contains r →
        ∀ text ∈ r.verbatim, IsClosed text) ∧
      (c.compile (mainWithLine truth "fmt.Println()")).outcome = .ok s ∧
      (c.compile (mainWithLine number "a_b.Println()")).outcome = .ok t ∧
      "truefmt" ∈ qualifiers s.code ∧ ¬ s.usage.Covers "truefmt" ∧
      "_b" ∈ qualifiers t.code ∧ ¬ t.usage.Covers "_b" := by
  refine ⟨{ catalogue := .ofBuiltins }, { id := "b", kind := "logic_boolean" },
    { id := "n", kind := "math_number", fields := [("NUM", .number (.ofNat 5))] },
    { code := "func main() \x7b\n\ttruefmt.Println()\n\x7d\n"
      usage := { packages := NameSet.ofList ["fmt"] } },
    { code := "func main() \x7b\n\t5a_b.Println()\n\x7d\n"
      usage := { packages := NameSet.ofList ["a_b"] } },
    .builtins, Text.forall_mem_of_all (by decide), isClosed_of_everywhere (by decide),
    isClosed_of_everywhere (by decide), by decide +kernel, by decide +kernel, by decide, ?_,
    by decide, ?_⟩
  · unfold Usage.Covers
    decide
  · unfold Usage.Covers
    decide

end Compiler

end Blockwork
