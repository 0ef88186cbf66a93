import Blockwork.Proofs.Routing.Handler

/-!
# First-match dispatch

A tree of routes says by itself which handler a request gets: at each level the first route
takes it whose path, behind those of the routes around it, starts the path of the request and
whose method is the request's; the routes inside that one are asked next, and when none of them
takes the request, the route's own handler does.

The statements of a route do the same with a variable that they overwrite. What keeps siblings
from seeing the overwritten variable is that a test whose body ran has returned
(`Route.exec_statement`).
-/

namespace Blockwork.Routing

/-- A route and the routes inside it. Its path goes on from those of the routes around it. -/
structure Route where
  path : String
  method : String
  handler : String
  inner : List Route

/-! ### Which handler a request gets -/

mutual

/-- The handler that a route finds for a request, when the routes around it have this path:
none if the route does not take the request. -/
def Route.handlerFor? (q : Request) (base : String) : Route → Option String
  | ⟨path, method, handler, inner⟩ =>
    if (base ++ path).toList <+: q.path.toList ∧ method = q.method then
      some ((firstHandler? q (base ++ path) inner).getD handler)
    else none

/-- The handler that the first route finds which takes the request. -/
def firstHandler? (q : Request) (base : String) : List Route → Option String
  | [] => none
  | r :: rest =>
    match r.handlerFor? q base with
    | some handler => some handler
    | none => firstHandler? q base rest

end

/-- What a handler's text runs: nothing, when it is blank. -/
def callsOf (handler : String) : List String :=
  if Text.isBlankText handler then [] else [handler]

/-! ### The statements of routes -/

mutual

/-- The statement of a route: a test around the statements of the routes inside it. -/
def Route.statement : Route → Statement
  | ⟨path, method, handler, inner⟩ =>
    .onMatch path method <|
      .extendPath path :: (statements inner ++ ((callsOf handler).map .call ++ [.leave]))

/-- The statements of routes that stand one after the other. -/
def statements : List Route → List Statement
  | [] => []
  | r :: rest => r.statement :: statements rest

end

/-- The body of the handler that tries these routes. -/
def bodyOf : List Route → List Statement
  | [] => []
  | r :: rest => .startPath :: statements (r :: rest)

/-! ### Execution -/

/-- How statements end that handle a request with `answer`: without one, everything is as it
was; otherwise its code has run and the handler is over. -/
def Settles (answer : Option String) (s : State) (result : State × Flow) : Prop :=
  match answer with
  | none => result = (s, .next)
  | some handler => ∃ path, result = (⟨path, s.ran ++ callsOf handler⟩, .returned)

theorem execAll_calls (q : Request) (codes : List String) (s : State) :
    execAll q (codes.map .call ++ [.leave]) s =
      ({ s with ran := s.ran ++ codes }, .returned) := by
  induction codes generalizing s with
  | nil => simp [execAll, Statement.exec]
  | cons code rest ih =>
    rw [List.map_cons, List.cons_append, execAll, Statement.exec]
    simp only
    rw [ih]
    simp

theorem startsWith_iff {q : Request} {start : String} :
    q.startsWith start = true ↔ start.toList <+: q.path.toList :=
  List.isPrefixOf_iff_prefix

mutual

/-- A route's statement handles what the route takes, and then returns; other requests pass it
with the variable unchanged. -/
theorem Route.exec_statement (q : Request) (r : Route) (s : State) :
    Settles (r.handlerFor? q s.path) s (r.statement.exec q s) := by
  obtain ⟨path, method, handler, inner⟩ := r
  rw [Route.handlerFor?, Route.statement, Statement.exec]
  by_cases taken : (s.path ++ path).toList <+: q.path.toList ∧ method = q.method
  · have test : (q.startsWith (s.path ++ path) && q.method == method) = true := by
      rw [Bool.and_eq_true, startsWith_iff, beq_iff_eq]
      exact ⟨taken.1, taken.2.symm⟩
    rw [if_pos taken, if_pos test, execAll, Statement.exec]
    simp only
    rw [execAll_append]
    -- The routes inside settle the request, or leave it to the route's own handler.
    have within := exec_statements q inner ⟨s.path ++ path, s.ran⟩
    cases found : firstHandler? q (s.path ++ path) inner with
    | none =>
      rw [found] at within
      have passed : execAll q (statements inner) ⟨s.path ++ path, s.ran⟩ = _ := within
      rw [passed]
      simp only
      rw [execAll_calls]
      exact ⟨_, rfl⟩
    | some chosen =>
      rw [found] at within
      obtain ⟨last, settled⟩ := within
      rw [settled]
      exact ⟨last, rfl⟩
  · have test : ¬ (q.startsWith (s.path ++ path) && q.method == method) = true := by
      rw [Bool.and_eq_true, startsWith_iff, beq_iff_eq]
      exact fun both => taken ⟨both.1, both.2.symm⟩
    rw [if_neg taken, if_neg test]
    rfl

/-- Statements of routes settle a request like the first route that takes it. -/
theorem exec_statements (q : Request) (routes : List Route) (s : State) :
    Settles (firstHandler? q s.path routes) s (execAll q (statements routes) s) := by
  cases routes with
  | nil =>
    rw [firstHandler?, statements, execAll]
    rfl
  | cons r rest =>
    rw [firstHandler?, statements, execAll]
    have first := r.exec_statement q s
    cases found : r.handlerFor? q s.path with
    | none =>
      rw [found] at first
      have passed : r.statement.exec q s = _ := first
      rw [passed]
      exact exec_statements q rest s
    | some chosen =>
      rw [found] at first
      obtain ⟨last, settled⟩ := first
      rw [settled]
      exact ⟨last, rfl⟩

end

/-- A handler calls what the first route finds that takes the request, and nothing else. -/
theorem callsOn_bodyOf (q : Request) (routes : List Route) (start : String) :
    callsOn q (bodyOf routes) start =
      (firstHandler? q "" routes).elim [] callsOf := by
  cases routes with
  | nil => rfl
  | cons r rest =>
    unfold callsOn
    rw [bodyOf, execAll, Statement.exec]
    simp only
    have settled := exec_statements q (r :: rest) ⟨"", []⟩
    cases found : firstHandler? q "" (r :: rest) with
    | none =>
      rw [found] at settled
      have passed : execAll q (statements (r :: rest)) ⟨"", []⟩ = _ := settled
      rw [passed]
      rfl
    | some chosen =>
      rw [found] at settled
      obtain ⟨last, done⟩ := settled
      rw [done]
      rfl

end Blockwork.Routing
