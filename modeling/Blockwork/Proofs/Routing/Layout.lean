import Blockwork.Proofs.Routing.Router

/-!
# Routers around any code

The user's code in a handler may have more than one line. It stands behind the indentation of
its first line as it is, and the tests around it indent it further with everything else. Laid
out in this way, the statements of routes are what a route group generates, whatever the
handlers say (`Compiler.routeGroup_generates_layout`).
-/

namespace Blockwork

namespace Routing

/-! ### Statements in their place -/

mutual

/-- The lines of a statement inside a body. Of the user's code only the first line is
indented. -/
def Statement.laidOut (i : String) : Statement → String
  | .startPath => i ++ "path := \"\"\n"
  | .extendPath segment => i ++ extensionLine segment
  | .onMatch segment method body =>
    Text.indent i (testLine segment method ++ laidOutAll i body ++ "\x7d\n")
  | .call code => i ++ code ++ "\n"
  | .leave => i ++ "return\n"

/-- The lines of the statements of a body. -/
def laidOutAll (i : String) : List Statement → String
  | [] => ""
  | s :: rest => s.laidOut i ++ laidOutAll i rest

end

/-- The layout of a handler with this body. -/
def handlerLayout (i : String) (body : List Statement) : String :=
  "apiHandler := func(w http.ResponseWriter, r *http.Request) \x7b\n" ++ laidOutAll i body ++
    "\x7d\n"

variable {i : String}

theorem laidOutAll_append (first second : List Statement) :
    laidOutAll i (first ++ second) = laidOutAll i first ++ laidOutAll i second := by
  induction first with
  | nil => exact String.empty_append.symm
  | cons s rest ih =>
    rw [List.cons_append, laidOutAll, laidOutAll, ih, String.append_assoc]

theorem laidOutAll_calls (handler : String) :
    laidOutAll i ((callsOf (Text.trim handler)).map .call) =
      if (Text.trim handler).isEmpty then "" else s!"{i}{Text.trim handler}\n" := by
  have same := Text.isBlankText_trim handler
  unfold callsOf
  cases empty : (Text.trim handler).isEmpty with
  | true =>
    rw [same, empty]
    rfl
  | false =>
    rw [same, empty]
    simp only [Bool.false_eq_true, if_false, List.map_cons, List.map_nil, laidOutAll,
      Statement.laidOut, String.append_empty]
    rfl

/-! ### Routes -/

/-- The lines of a route's test, as they stand outside of any body. -/
def Route.layout (i : String) : Route → String
  | ⟨path, method, handler, inner⟩ =>
    testLine path method ++
      laidOutAll i (.extendPath path ::
        (statements inner ++ ((callsOf handler).map .call ++ [.leave]))) ++ "\x7d\n"

theorem Route.laidOut_statement (r : Route) :
    r.statement.laidOut i = Text.indent i (r.layout i) := by
  cases r
  rw [Route.statement, Statement.laidOut, Route.layout]

theorem Route.isComplete_layout (r : Route) : Text.IsComplete (r.layout i).toList := by
  have closing : "\x7d\n" = "\x7d" ++ "\n" := by decide
  cases r
  rw [Route.layout, closing, ← String.append_assoc, String.toList_append]
  exact Text.isComplete_append_newline

theorem Route.isEmpty_layout_append (r : Route) (behind : String) :
    (r.layout i ++ behind).isEmpty = false := by
  cases r
  rw [Route.layout, ← Bool.not_eq_true, String.isEmpty_iff, ← String.toList_eq_nil_iff]
  unfold testLine
  simp [String.toList_append]

/-- Indented, the layouts of routes are those of their statements in a body. -/
theorem indent_layouts (bs : List Block) :
    Text.indent i (String.join (bs.map fun b => (Route.ofBlock b).layout i)) =
      laidOutAll i (statements (routesOf bs)) := by
  induction bs with
  | nil => rfl
  | cons b rest ih =>
    have split : String.join ((b :: rest).map fun b => (Route.ofBlock b).layout i) =
        (Route.ofBlock b).layout i ++
          String.join (rest.map fun b => (Route.ofBlock b).layout i) := by simp
    rw [split, Text.indent_append (Route.isComplete_layout _), ih, routesOf, statements,
      laidOutAll, Route.laidOut_statement]

/-- The template of a route is the layout of its test when the code inside is the layout of the
routes inside. -/
theorem routeCode_eq_layout (path method handler : String) (inner : List Route) :
    Builtin.routeCode i (Source.quote path) (Source.quote method) (laidOutAll i (statements inner))
        (Text.trim handler) =
      Route.layout i ⟨path, method, Text.trim handler, inner⟩ := by
  rw [Route.layout, laidOutAll, laidOutAll_append, laidOutAll_append, laidOutAll_calls]
  simp only [laidOutAll, Statement.laidOut, String.append_empty]
  unfold Builtin.routeCode testLine extensionLine
  simp only [String.append_assoc]
  rfl

end Routing

open Routing

/-- The block is a route with a request method. -/
structure Block.TakesRequests (b : Block) : Prop where
  kind : b.kind = "route"
  method : ∃ method, Builtin.methodOf b = .ok method

instance (b : Block) : Decidable b.TakesRequests :=
  decidable_of_iff (b.kind = "route" ∧ (Builtin.methodOf b).isOk = true) <| by
    constructor
    · rintro ⟨kind, accepted⟩
      refine ⟨kind, ?_⟩
      cases method : Builtin.methodOf b with
      | error failure =>
        rw [method] at accepted
        exact nomatch accepted
      | ok m => exact ⟨m, rfl⟩
    · rintro ⟨kind, m, method⟩
      refine ⟨kind, ?_⟩
      rw [method]
      rfl

namespace Compiler

variable {c : Compiler}

/-- A route block whose inner blocks are routes is generated, and its code is the layout of its
route's test. -/
theorem layout_of_route
    (listed : c.catalogue.get? "route" = some ⟨Builtin.route.blockType, .builtin .route⟩)
    (b : Block) (routes : ∀ r, c.catalogue.Reaches b r → r.TakesRequests) :
    c.Generates b ((Route.ofBlock b).layout c.indent) := by
  refine code_of_template (fun b => (Route.ofBlock b).layout c.indent) listed b ?_
  intro r reaches
  obtain ⟨kind, method, accepted⟩ := routes r reaches
  refine ⟨kind, method, accepted, ?_⟩
  unfold templateCode
  rw [indent_layouts, Route.ofBlock_eq r accepted]
  exact routeCode_eq_layout _ _ _ _

theorem routeGroupCode_eq_layout (i : String) (routes : List Route) :
    Builtin.routeGroupCode i (laidOutAll i (statements routes)) =
      handlerLayout i (bodyOf routes) := by
  cases routes with
  | nil => rfl
  | cons r rest =>
    have shown : (laidOutAll i (statements (r :: rest))).isEmpty = false := by
      rw [statements, laidOutAll, Route.laidOut_statement, ← Bool.not_eq_true]
      intro empty
      have nothing := String.isEmpty_iff.mp empty
      have first := (String.append_eq_empty_iff.mp nothing).1
      have bare : (r.layout i).isEmpty = true := by
        rw [← Text.isEmpty_indent i, first]
        rfl
      have present := r.isEmpty_layout_append (i := i) ""
      rw [String.append_empty, bare] at present
      exact nomatch present
    unfold Builtin.routeGroupCode handlerLayout
    rw [shown, bodyOf, laidOutAll, Statement.laidOut]
    simp only [Bool.false_eq_true, if_false, String.append_assoc]
    rfl

/-- A route group that holds routes only, at every depth, is generated, and its code is the
layout of the handler that tries them. -/
theorem routeGroup_generates_layout {g : Block}
    (builtin : ∀ k : Builtin, c.catalogue.get? k.blockType.id = some ⟨k.blockType, .builtin k⟩)
    (group : g.kind = "route_group")
    (routes : ∀ child ∈ g.sequenceIn "NAME",
      ∀ r, c.catalogue.Reaches child r → r.TakesRequests) :
    c.Generates g (handlerLayout c.indent (bodyOf (routesOf (g.sequenceIn "NAME")))) := by
  have listed : c.catalogue.get? g.kind =
      some ⟨Builtin.routeGroup.blockType, .builtin .routeGroup⟩ := by
    rw [group]
    exact builtin .routeGroup
  have inner : ∀ child ∈ g.sequenceIn "NAME",
      c.Generates child ((Route.ofBlock child).layout c.indent) := by
    intro child mem
    exact layout_of_route (builtin .route) child (routes child mem)
  obtain ⟨after, told⟩ := indentedCode_of_codes inner
  rw [indent_layouts] at told
  have answered := (Builtin.routeGroup_answers (c.steady_holder g)).mpr ⟨_, told, rfl⟩
  refine ⟨_, (outcome_of_listed listed).mpr ⟨_, _, answered, rfl⟩, ?_⟩
  exact routeGroupCode_eq_layout c.indent _

end Compiler

end Blockwork
