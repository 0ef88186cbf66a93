import Blockwork.Proofs.Block.Verbatim
import Blockwork.Proofs.Generation.Answers

/-!
# How generated code is put together

`Composed` is the grammar of generated code: the templates, what fills them, and how codes are
sequenced, indented and put between parentheses. Every snippet is composed
(`Compiler.composed`), so what holds of a text because of how it is put together is shown by
induction over `Composed`, without blocks and frames.
-/

namespace Blockwork

/-- Code that is composed of the templates with this indentation. Texts that are code satisfy
`verbatim`, all other texts of the user stand in string literals. -/
inductive Composed (indent : String) (verbatim : String → Prop) : String → Prop where
  | empty : Composed indent verbatim ""
  | append {code other : String} (first : Composed indent verbatim code)
    (second : Composed indent verbatim other) : Composed indent verbatim (code ++ other)
  | indented {code : String} (inner : Composed indent verbatim code) :
    Composed indent verbatim (Text.indent indent code)
  | bracketed {code : String} (inner : Composed indent verbatim code) :
    Composed indent verbatim ("(" ++ code ++ ")")
  | main {body : String} (inner : Composed indent verbatim body) :
    Composed indent verbatim (Builtin.mainCode body)
  | server (address : String) {body : String} (inner : Composed indent verbatim body) :
    Composed indent verbatim (Builtin.serverCode indent (Source.quote address) body)
  | routeGroup {routes : String} (inner : Composed indent verbatim routes) :
    Composed indent verbatim (Builtin.routeGroupCode indent routes)
  | route (path method : String) {routes handler : String}
    (inner : Composed indent verbatim routes) (entered : verbatim handler) :
    Composed indent verbatim
      (Builtin.routeCode indent (Source.quote path) (Source.quote method) routes
        (Text.trim handler))
  | shutdown {hooks : String} (inner : Composed indent verbatim hooks) :
    Composed indent verbatim (Builtin.shutdownCode indent hooks)
  | line {code : String} (entered : verbatim code) : Composed indent verbatim (code ++ "\n")
  | map {entries : String} (inner : Composed indent verbatim entries) :
    Composed indent verbatim (Builtin.mapCode entries)
  | mapField (key : String) {value : String} (inner : Composed indent verbatim value) :
    Composed indent verbatim (Builtin.mapFieldCode (Source.quote key) value)
  | handler (path : String) {handler : String} (entered : verbatim handler) :
    Composed indent verbatim (Builtin.handlerCode (Source.quote path) (Text.trim handler))
  | text (text : String) : Composed indent verbatim (Source.quote text)
  | number {x : Binary64} (finite : x.isFinite = true) : Composed indent verbatim x.numberText
  | boolean (truth : Bool) : Composed indent verbatim (if truth then "true" else "false")
  | call {item : CallItem} {arguments : List (Parameter × String)}
    (faultless : item.fault? = none)
    (values : ∀ argument ∈ arguments, Composed indent verbatim argument.2) :
    Composed indent verbatim (item.code (arguments.map fun argument =>
      (argument.1, Source.requote argument.2)))
  | literal {item : LiteralItem} (address : Bool) {arguments : List (Parameter × String)}
    (faultless : item.fault? = none) (named : ∀ argument ∈ arguments, argument.1 ∈ item.parameters)
    (values : ∀ argument ∈ arguments, Composed indent verbatim argument.2) :
    Composed indent verbatim (item.code address (arguments.map fun argument =>
      (argument.1, Source.requote argument.2)))

namespace Compiler

variable {c : Compiler} {b : Block} {input code : String} {outer : Precedence}
  {top after : Usage} {own : Snippet} {verbatim : String → Prop}

/-- What the blocks in the inputs of a block generate is composed. -/
structure InputsComposed (c : Compiler) (b : Block) (verbatim : String → Prop) : Prop where
  values : ∀ input child, b.plugged? input = some child →
    ∀ s, (c.compile child).outcome = .ok s → Composed c.indent verbatim s.code
  statements : ∀ input, ∀ child ∈ b.sequenceIn input,
    ∀ s, (c.compile child).outcome = .ok s → Composed c.indent verbatim s.code

namespace InputsComposed

theorem valueCode (inputs : InputsComposed c b verbatim)
    (answered : ((c.holder b).valueCode input outer).Answers top code after) :
    Composed c.indent verbatim code := by
  rcases valueCode_answers.mp answered with ⟨-, rfl, -⟩ | ⟨child, s, found, made, stands, -⟩
  · exact .empty
  · have inner := inputs.values input child found s made
    unfold Snippet.inSlot? at stands
    split at stands
    · obtain rfl := Option.some.inj stands
      exact .empty
    · obtain ⟨order, -, rfl⟩ := Option.map_eq_some_iff.mp stands
      split
      · exact .bracketed inner
      · exact inner

theorem sequenceCode (inputs : InputsComposed c b verbatim)
    (answered : ((c.holder b).sequenceCode input).Answers top code after) :
    Composed c.indent verbatim code := by
  obtain ⟨snippets, made, rfl, -⟩ := sequenceCode_answers.mp answered
  have all : ∀ s ∈ snippets, Composed c.indent verbatim s.code := by
    intro s mem
    obtain ⟨child, standing, generated⟩ := mem_of_snippets made mem
    exact inputs.statements input child standing s generated
  clear made answered
  induction snippets with
  | nil => exact .empty
  | cons s rest ih =>
    rw [List.map_cons, String.join_cons]
    exact .append (all s List.mem_cons_self) (ih fun t mem => all t (List.mem_cons_of_mem _ mem))

theorem indentedCode (inputs : InputsComposed c b verbatim)
    (answered : ((c.holder b).indentedCode c.surroundings input).Answers top code after) :
    Composed c.indent verbatim code := by
  unfold Holder.indentedCode at answered
  obtain ⟨inner, told, rfl⟩ :=
    (Gen.answers_bind_pure ((c.steady_holder b).sequenceCode input)).mp answered
  exact .indented (inputs.sequenceCode told)

/-- The arguments are the codes of value slots, requoted. -/
theorem arguments (inputs : InputsComposed c b verbatim) {parameters : List Parameter}
    {arguments : List (Parameter × String)}
    (answered : ((c.holder b).arguments parameters).Answers top arguments after) :
    ∃ values : List (Parameter × String),
      arguments = values.map (fun value => (value.1, Source.requote value.2)) ∧
      ∀ value ∈ values, value.1 ∈ parameters ∧ Composed c.indent verbatim value.2 := by
  induction parameters generalizing top arguments with
  | nil =>
    obtain ⟨rfl, -⟩ := Holder.arguments_nil_answers.mp answered
    exact ⟨[], rfl, nofun⟩
  | cons p rest ih =>
    obtain ⟨value, mid, others, told, later, rfl⟩ :=
      (Holder.arguments_cons_answers (c.steady_holder b)).mp answered
    obtain ⟨values, rfl, composed⟩ := ih later
    have known : ∀ value ∈ values, value.1 ∈ p :: rest ∧ Composed c.indent verbatim value.2 :=
      fun value mem => ⟨List.mem_cons_of_mem _ (composed value mem).1, (composed value mem).2⟩
    split
    · exact ⟨values, rfl, known⟩
    · refine ⟨(p, value) :: values, rfl, ?_⟩
      exact List.forall_mem_cons.mpr ⟨⟨List.mem_cons_self, inputs.valueCode told⟩, known⟩

/-- What a built-in writes with inputs that are composed is composed. -/
theorem builtin {k : Builtin} (inputs : InputsComposed c b verbatim)
    (line : k = .line → verbatim (b.textD "line" ""))
    (route : k = .route → verbatim (b.textD "handler" ""))
    (handler : k = .handler → verbatim (b.textD "func" ""))
    (answered : (k.snippet c.surroundings (c.holder b)).Answers {} own after) :
    Composed c.indent verbatim own.code := by
  have steady := c.steady_holder b
  cases k with
  | require =>
    obtain ⟨value, -, ⟨-, rfl⟩ | ⟨path, -, -, rfl⟩⟩ := (Builtin.require_answers steady).mp answered
    · exact .empty
    · split <;> exact .empty
  | main =>
    obtain ⟨body, told, rfl⟩ := (Builtin.main_answers steady).mp answered
    exact .main (inputs.indentedCode told)
  | server =>
    obtain ⟨port, body, mid, -, told, -, rfl⟩ := (Builtin.server_answers steady).mp answered
    exact .server _ (inputs.indentedCode told)
  | routeGroup =>
    obtain ⟨routes, told, rfl⟩ := (Builtin.routeGroup_answers steady).mp answered
    exact .routeGroup (inputs.indentedCode told)
  | route =>
    obtain ⟨method, routes, mid, -, told, -, rfl⟩ := (Builtin.route_answers steady).mp answered
    exact .route _ _ (inputs.indentedCode told) (route rfl)
  | onStart =>
    obtain ⟨body, told, rfl⟩ := (Builtin.onStart_answers steady).mp answered
    exact inputs.sequenceCode told
  | onShutdown =>
    obtain ⟨hooks, told, rfl⟩ := (Builtin.onShutdown_answers steady).mp answered
    exact .shutdown (inputs.indentedCode told)
  | line =>
    have lines := Builtin.line_answers.mp answered
    split at lines
    · obtain ⟨rfl, -⟩ := lines
      exact .empty
    · obtain ⟨rfl, -⟩ := lines
      exact .line (line rfl)
  | map =>
    obtain ⟨entries, told, rfl⟩ := (Builtin.map_answers steady).mp answered
    exact .map (inputs.indentedCode told)
  | mapField =>
    obtain ⟨value, told, rfl⟩ := (Builtin.mapField_answers steady).mp answered
    exact .mapField _ (inputs.valueCode told)
  | handler =>
    change (Builtin.handlerSnippet (c.holder b)).Answers _ _ _ at answered
    rw [Builtin.handler_answers] at answered
    split at answered
    · obtain ⟨rfl, -⟩ := answered
      exact .empty
    · obtain ⟨rfl, -⟩ := answered
      exact .handler _ (handler rfl)
  | text =>
    obtain ⟨rfl, -⟩ := Builtin.text_answers.mp answered
    exact .text _
  | number =>
    obtain ⟨x, -, finite, rfl, -⟩ := Builtin.number_answers.mp answered
    exact .number finite
  | boolean =>
    obtain ⟨rfl, -⟩ := Builtin.boolean_answers.mp answered
    exact .boolean _

theorem call {item : CallItem} (inputs : InputsComposed c b verbatim)
    (faultless : item.fault? = none)
    (answered : (item.snippet (c.holder b)).Answers {} own after) :
    Composed c.indent verbatim own.code := by
  obtain ⟨arguments, told, rfl⟩ := (item.snippet_answers (c.steady_holder b)).mp answered
  obtain ⟨values, rfl, composed⟩ := inputs.arguments told
  exact .call faultless fun value mem => (composed value mem).2

theorem literal {item : LiteralItem} (inputs : InputsComposed c b verbatim)
    (faultless : item.fault? = none)
    (answered : (item.snippet (c.holder b)).Answers {} own after) :
    Composed c.indent verbatim own.code := by
  obtain ⟨arguments, told, rfl⟩ := (item.snippet_answers (c.steady_holder b)).mp answered
  obtain ⟨values, rfl, composed⟩ := inputs.arguments told
  exact .literal _ faultless (fun value mem => (composed value mem).1)
    fun value mem => (composed value mem).2

end InputsComposed

/-- Every block generates composed code. -/
theorem composed (loaded : c.catalogue.Loaded) (b : Block)
    (entered : ∀ r, b.Contains r → ∀ text ∈ r.verbatim, verbatim text) :
    ∀ s, (c.compile b).outcome = .ok s → Composed c.indent verbatim s.code := by
  induction b using Block.induction with
  | step b values statements =>
    intro s made
    have inputs : InputsComposed c b verbatim := by
      refine ⟨fun input child found => ?_, fun input child mem => ?_⟩
      · exact values input child found fun r inside => entered r (.value found inside)
      · exact statements input child mem fun r inside => entered r (.statement mem inside)
    cases listed : c.catalogue.get? b.kind with
    | none =>
      obtain ⟨-, rfl⟩ := (outcome_of_unlisted listed).mp made
      exact .empty
    | some listing =>
      obtain ⟨own, inner, answered, rfl⟩ := (outcome_of_listed listed).mp made
      obtain ⟨blockType, generator⟩ := listing
      show Composed c.indent verbatim own.code
      cases generator with
      | builtin k =>
        have here := entered b (.self b)
        have verbatim := loaded.builtin_verbatim listed
        exact inputs.builtin (fun line => here _ (verbatim.1 line))
          (fun route => here _ (verbatim.2.1 route))
          (fun handler => here _ (verbatim.2.2 handler)) answered
      | call item => exact inputs.call (loaded.listed listed).2.2 answered
      | literal item => exact inputs.literal (loaded.listed listed).2.2 answered
      | recipe recipe => exact absurd rfl (loaded.not_recipe listed recipe)

end Compiler

end Blockwork
