import Blockwork.Proofs.Block.Reach
import Blockwork.Proofs.Generation.Answers
import Blockwork.Proofs.Routing.Dispatch
import Blockwork.Proofs.Source.Literals
import Blockwork.Proofs.Text.Lines

/-!
# Generated routers

A route group generates a request handler whose body is a tree of tests, one for each route in
it:

* **one template** — `Builtin.routeCode_eq`: the code of a route is the text of its statement
  when the code inside is that of the routes inside;
* **one block** — `Compiler.code_of_template`: by induction over blocks, a route block is
  generated and its code fills the template, so that it is the text of its route's statement
  (`Compiler.code_of_route`);
* **the group** — `Compiler.routes_by_first_match`: the handler calls what the first route finds
  that takes the request.
-/

namespace Blockwork

open Routing

/-! ### Routes of blocks -/

namespace Routing

mutual

/-- The route that a block stands for. -/
def Route.ofBlock : Block → Route
  | ⟨id, kind, position, fields, values, statements⟩ =>
    let b : Block := ⟨id, kind, position, fields, values, statements⟩
    { path := b.textD "path" Builtin.defaultPath
      -- A method that is not accepted makes no route; the code fails then.
      method := (Builtin.methodOf b).toOption.getD ""
      handler := Text.trim (b.textD "handler" "")
      inner := routesIn "sub" statements }

/-- The routes in a statement input. -/
def routesIn (input : String) : List (String × List Block) → List Route
  | [] => []
  | (name, bs) :: rest => if name = input then routesOf bs else routesIn input rest

/-- The routes of blocks that stand one after the other. -/
def routesOf : List Block → List Route
  | [] => []
  | b :: rest => Route.ofBlock b :: routesOf rest

end

theorem routesIn_eq (input : String) (statements : List (String × List Block)) :
    routesIn input statements = routesOf ((Entries.get? input statements).getD []) := by
  induction statements with
  | nil => rfl
  | cons entry rest ih =>
    obtain ⟨name, bs⟩ := entry
    rw [routesIn, Entries.get?]
    split
    · rfl
    · exact ih

theorem Route.ofBlock_eq (b : Block) {method : String}
    (accepted : Builtin.methodOf b = .ok method) :
    ofBlock b =
      ⟨b.textD "path" Builtin.defaultPath, method, Text.trim (b.textD "handler" ""),
        routesOf (b.sequenceIn "sub")⟩ := by
  obtain ⟨id, kind, position, fields, values, statements⟩ := b
  rw [ofBlock]
  simp only [accepted, routesIn_eq]
  rfl

end Routing

/-- The block is a route with a request method, and its handler is one line of code. -/
structure Block.IsRoute (b : Block) : Prop where
  kind : b.kind = "route"
  method : ∃ method, Builtin.methodOf b = .ok method
  handler : '\n' ∉ (Text.trim (b.textD "handler" "")).toList

instance (b : Block) : Decidable b.IsRoute :=
  decidable_of_iff
    (b.kind = "route" ∧ (Builtin.methodOf b).isOk = true ∧
      '\n' ∉ (Text.trim (b.textD "handler" "")).toList) <| by
    constructor
    · rintro ⟨kind, accepted, plain⟩
      refine ⟨kind, ?_, plain⟩
      cases method : Builtin.methodOf b with
      | error failure =>
        rw [method] at accepted
        exact nomatch accepted
      | ok m => exact ⟨m, rfl⟩
    · rintro ⟨kind, ⟨m, method⟩, plain⟩
      refine ⟨kind, ?_, plain⟩
      rw [method]
      rfl

/-! ### Texts of statements -/

namespace Routing

variable {i handler : String}

theorem isComplete_text (s : Statement) : Text.IsComplete (s.text i).toList := by
  suffices ∃ line : String, s.text i = line ++ "\n" by
    obtain ⟨line, whole⟩ := this
    rw [whole, String.toList_append]
    exact Text.isComplete_append_newline
  cases s with
  | startPath => exact ⟨"path := \"\"", by rw [Statement.text]; decide⟩
  | extendPath segment =>
    rw [Statement.text]
    exact ⟨_, rfl⟩
  | onMatch segment method body =>
    have closing : "\x7d\n" = "\x7d" ++ "\n" := by decide
    rw [Statement.text, closing, ← String.append_assoc]
    exact ⟨_, rfl⟩
  | call code => exact ⟨code, by rw [Statement.text]⟩
  | leave => exact ⟨"return", by rw [Statement.text]; decide⟩

theorem isComplete_bodyText (body : List Statement) :
    Text.IsComplete (bodyText i body).toList := by
  induction body with
  | nil => exact .inl rfl
  | cons s rest ih =>
    rw [bodyText, String.toList_append]
    exact (isComplete_text s).append ih

theorem isEmpty_text_append (r : Route) (behind : String) :
    (r.statement.text i ++ behind).isEmpty = false := by
  obtain ⟨path, method, handler, inner⟩ := r
  rw [Route.statement, Statement.text, ← Bool.not_eq_true, String.isEmpty_iff,
    ← String.toList_eq_nil_iff]
  unfold testLine
  simp [String.toList_append]

theorem newline_not_mem_quote (text : String) : '\n' ∉ (Source.quote text).toList := by
  rw [Source.toList_quote]
  exact Source.newline_not_mem_quoteChars _

theorem indent_extensionLine (segment : String) :
    Text.indent i (extensionLine segment) = i ++ extensionLine segment := by
  have plain : '\n' ∉ ("path = path + " ++ Source.quote segment).toList := by
    rw [String.toList_append, List.mem_append, not_or]
    exact ⟨by decide, newline_not_mem_quote segment⟩
  have shown : Text.isBlankText ("path = path + " ++ Source.quote segment) = false := by
    unfold Text.isBlankText
    rw [String.toList_append, List.all_append]
    rfl
  exact Text.indent_line plain shown

/-- A handler stands in a line of its own, unless it is empty. -/
theorem indent_calls (plain : '\n' ∉ (Text.trim handler).toList) :
    Text.indent i (bodyText i ((callsOf (Text.trim handler)).map .call)) =
      if (Text.trim handler).isEmpty then "" else s!"{i}{Text.trim handler}\n" := by
  have same := Text.isBlankText_trim handler
  unfold callsOf
  cases empty : (Text.trim handler).isEmpty with
  | true =>
    rw [same, empty]
    rfl
  | false =>
    have shown : Text.isBlankText (Text.trim handler) = false := same.trans empty
    rw [shown]
    simp only [Bool.false_eq_true, if_false, List.map_cons, List.map_nil, bodyText,
      Statement.text, String.append_empty]
    rw [Text.indent_line plain shown, ← String.append_assoc]
    rfl

end Routing

/-- The code of a route is the text of its statement when the code inside is that of the
routes inside. -/
theorem Builtin.routeCode_eq {i path method handler : String} (inner : List Route)
    (plain : '\n' ∉ (Text.trim handler).toList) :
    routeCode i (Source.quote path) (Source.quote method)
        (Text.indent i (bodyText i (statements inner))) (Text.trim handler) =
      (Route.statement ⟨path, method, Text.trim handler, inner⟩).text i := by
  have leaves : Text.indent i "return\n" = i ++ "return\n" := by
    have line : "return\n" = "return" ++ "\n" := by decide
    rw [line]
    exact Text.indent_line (by decide) (by decide)
  have extension : Text.IsComplete (extensionLine path).toList :=
    isComplete_text (i := i) (.extendPath path)
  rw [Route.statement, Statement.text, bodyText, Statement.text, bodyText_append, bodyText_append,
    Text.indent_append extension, Text.indent_append (isComplete_bodyText _),
    Text.indent_append (isComplete_bodyText _), indent_extensionLine, indent_calls plain]
  simp only [bodyText, Statement.text, String.append_empty, leaves]
  unfold routeCode testLine extensionLine
  simp only [String.append_assoc]
  rfl

/-! ### Generated code -/

namespace Compiler

variable {c : Compiler} {b : Block}

/-- The block is generated, and this is its code. -/
def Generates (c : Compiler) (b : Block) (code : String) : Prop :=
  ∃ s, (c.compile b).outcome = .ok s ∧ s.code = code

theorem Generates.sequence {code : Block → String} {bs : List Block}
    (all : ∀ b ∈ bs, c.Generates b (code b)) :
    ∃ snippets, c.snippets bs = .ok snippets ∧ snippets.map (·.code) = bs.map code := by
  induction bs with
  | nil => exact ⟨[], rfl, rfl⟩
  | cons b rest ih =>
    obtain ⟨s, made, here⟩ := all b List.mem_cons_self
    obtain ⟨others, done, there⟩ := ih fun other mem => all other (List.mem_cons_of_mem _ mem)
    refine ⟨s :: others, snippets_cons.mpr ⟨s, others, made, done, rfl⟩, ?_⟩
    rw [List.map_cons, List.map_cons, here, there]

theorem join_texts (i : String) (bs : List Block) :
    String.join (bs.map fun b => (Route.ofBlock b).statement.text i) =
      bodyText i (statements (routesOf bs)) := by
  induction bs with
  | nil => rfl
  | cons b rest ih =>
    rw [List.map_cons, routesOf, statements, bodyText, ← ih]
    simp

/-- Blocks that are generated give their codes one after the other, indented. -/
theorem indentedCode_of_codes {input : String} {code : Block → String}
    (all : ∀ child ∈ b.sequenceIn input, c.Generates child (code child)) :
    ∃ after, ((c.holder b).indentedCode c.surroundings input).Answers {}
      (Text.indent c.indent (String.join ((b.sequenceIn input).map code))) after := by
  obtain ⟨snippets, made, codes⟩ := Generates.sequence all
  refine ⟨usageAfter {} snippets, indentedCode_answers.mpr ⟨snippets, made, ?_, rfl⟩⟩
  rw [codes]
  rfl

/-- Blocks that are generated as routes give the text of their statements, indented. -/
theorem indentedCode_of_routes {input : String}
    (all : ∀ child ∈ b.sequenceIn input,
      c.Generates child ((Route.ofBlock child).statement.text c.indent)) :
    ∃ after, ((c.holder b).indentedCode c.surroundings input).Answers {}
      (Text.indent c.indent (bodyText c.indent (statements (routesOf (b.sequenceIn input)))))
      after := by
  rw [← join_texts]
  exact indentedCode_of_codes all

/-- The code that a route block fills into its template when `code` tells those of the blocks
inside it. -/
def templateCode (i method : String) (code : Block → String) (r : Block) : String :=
  Builtin.routeCode i (Source.quote (r.textD "path" Builtin.defaultPath)) (Source.quote method)
    (Text.indent i (String.join ((r.sequenceIn "sub").map code)))
    (Text.trim (r.textD "handler" ""))

/-- Route blocks at every depth are generated, and any way of telling their codes that agrees
with the template tells them right. -/
theorem code_of_template (code : Block → String)
    (listed : c.catalogue.get? "route" = some ⟨Builtin.route.blockType, .builtin .route⟩)
    (b : Block)
    (routes : ∀ r, c.catalogue.Reaches b r → r.kind = "route" ∧
      ∃ method, Builtin.methodOf r = .ok method ∧ templateCode c.indent method code r = code r) :
    c.Generates b (code b) := by
  induction b using Block.induction with
  | step b _ statements =>
    obtain ⟨kind, method, accepted, filled⟩ := routes b (.self b)
    have here : c.catalogue.get? b.kind = some ⟨Builtin.route.blockType, .builtin .route⟩ := by
      rw [kind]
      exact listed
    have inner : ∀ child ∈ b.sequenceIn "sub", c.Generates child (code child) := by
      intro child mem
      refine statements "sub" child mem ?_
      intro r reaches
      exact routes r (.statement here (by decide) mem reaches)
    obtain ⟨mid, told⟩ := indentedCode_of_codes inner
    have answered := (Builtin.route_answers (c.steady_holder b)).mpr
      ⟨method, _, mid, accepted, told, rfl, rfl⟩
    exact ⟨_, (outcome_of_listed here).mpr ⟨_, _, answered, rfl⟩, filled⟩

/-- A route block whose inner blocks are routes is generated, and its code is the text of its
route's statement. -/
theorem code_of_route
    (listed : c.catalogue.get? "route" = some ⟨Builtin.route.blockType, .builtin .route⟩)
    (b : Block) (routes : ∀ r, c.catalogue.Reaches b r → r.IsRoute) :
    c.Generates b ((Route.ofBlock b).statement.text c.indent) := by
  refine code_of_template (fun b => (Route.ofBlock b).statement.text c.indent) listed b ?_
  intro r reaches
  obtain ⟨kind, ⟨method, accepted⟩, plain⟩ := routes r reaches
  refine ⟨kind, method, accepted, ?_⟩
  unfold templateCode
  rw [join_texts, Route.ofBlock_eq r accepted]
  exact Builtin.routeCode_eq _ plain

/-- The code of a route group with these routes is the text of the handler that tries them. -/
theorem routeGroupCode_eq (i : String) (routes : List Route) :
    Builtin.routeGroupCode i (Text.indent i (bodyText i (statements routes))) =
      handlerText i (bodyOf routes) := by
  cases routes with
  | nil => rfl
  | cons r rest =>
    have declaration : "path := \"\"\n" = "path := \"\"" ++ "\n" := by decide
    have complete : Text.IsComplete "path := \"\"\n".toList :=
      isComplete_text (i := i) .startPath
    have start : Text.indent i "path := \"\"\n" = i ++ "path := \"\"\n" := by
      rw [declaration]
      exact Text.indent_line (by decide) (by decide)
    have shown : (Text.indent i (bodyText i (statements (r :: rest)))).isEmpty = false := by
      rw [Text.isEmpty_indent, statements, bodyText]
      exact isEmpty_text_append r _
    unfold Builtin.routeGroupCode handlerText
    rw [shown, bodyOf, bodyText, Statement.text, Text.indent_append complete, start]
    simp only [Bool.false_eq_true, if_false, String.append_assoc]
    rfl

/-- **Generated routers dispatch to the first match.** A route group that holds routes only, at
every depth, is generated. Its code is the text of a handler that runs on a request what the
first route finds that takes it, and nothing when no route does; what stands in the variable
before the handler starts does not matter. -/
theorem routes_by_first_match (available : List String) (indent : String) (strict : Bool)
    {g : Block} (group : g.kind = "route_group")
    (routes : ∀ child ∈ g.sequenceIn "NAME",
      ∀ r, Catalogue.ofBuiltins.Reaches child r → r.IsRoute) :
    ∃ s, (({ catalogue := .ofBuiltins, available, indent, strict } : Compiler).compile
          g).outcome = .ok s ∧
      s.code = handlerText indent (bodyOf (routesOf (g.sequenceIn "NAME"))) ∧
      ∀ q start, callsOn q (bodyOf (routesOf (g.sequenceIn "NAME"))) start =
        (firstHandler? q "" (routesOf (g.sequenceIn "NAME"))).elim [] callsOf := by
  let c : Compiler := { catalogue := .ofBuiltins, available, indent, strict }
  have listed : c.catalogue.get? g.kind =
      some ⟨Builtin.routeGroup.blockType, .builtin .routeGroup⟩ := by
    rw [group]
    exact Catalogue.get?_ofBuiltins_id .routeGroup
  have inner : ∀ child ∈ g.sequenceIn "NAME",
      c.Generates child ((Route.ofBlock child).statement.text c.indent) := by
    intro child mem
    exact code_of_route (Catalogue.get?_ofBuiltins_id .route) child (routes child mem)
  obtain ⟨after, told⟩ := indentedCode_of_routes inner
  have answered := (Builtin.routeGroup_answers (c.steady_holder g)).mpr ⟨_, told, rfl⟩
  refine ⟨_, (outcome_of_listed listed).mpr ⟨_, _, answered, rfl⟩, ?_, ?_⟩
  · exact routeGroupCode_eq indent _
  · intro q start
    exact callsOn_bodyOf q _ start

/-- In a group of `/api`, with `/users` inside it, and `/` behind it, each request gets the handler
of the innermost route that takes it. -/
theorem routes_by_first_match_of_nested :
    let users : Block :=
      { id := "u", kind := "route",
        fields := [("handler", .text "list(w, r)"), ("path", .text "/users")] }
    let api : Block :=
      { id := "a", kind := "route",
        fields := [("handler", .text " index(w, r)"), ("path", .text "/api")],
        statements := [("sub", [users])] }
    let other : Block :=
      { id := "o", kind := "route",
        fields := [("handler", .text "create(w, r)"), ("method", .text "post"),
          ("path", .text "/")] }
    let body := bodyOf (routesOf [api, other])
    callsOn ⟨"GET", "/api/users/7"⟩ body "" = ["list(w, r)"] ∧
      callsOn ⟨"GET", "/api/shops"⟩ body "" = ["index(w, r)"] ∧
      callsOn ⟨"POST", "/api/users"⟩ body "" = ["create(w, r)"] := by
  intro users api other body
  let g : Block := { id := "g", kind := "route_group", statements := [("NAME", [api, other])] }
  have all : Block.everywhereInStatements (fun b => decide b.IsRoute) g.statements = true := by
    decide +kernel
  have routes : ∀ child ∈ g.sequenceIn "NAME",
      ∀ r, Catalogue.ofBuiltins.Reaches child r → r.IsRoute := by
    intro child mem r reaches
    have everywhere := Block.everywhere_of_mem_sequence all mem
    exact of_decide_eq_true (reaches.contains.of_everywhere everywhere)
  obtain ⟨-, -, -, dispatched⟩ := routes_by_first_match [] "\t" true (g := g) rfl routes
  refine ⟨(dispatched ⟨"GET", "/api/users/7"⟩ "").trans ?_,
    (dispatched ⟨"GET", "/api/shops"⟩ "").trans ?_,
    (dispatched ⟨"POST", "/api/users"⟩ "").trans ?_⟩ <;> decide +kernel

end Compiler

end Blockwork
