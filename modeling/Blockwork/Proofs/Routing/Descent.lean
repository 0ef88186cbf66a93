import Blockwork.Proofs.Routing.Layout

/-!
# Ways down to a route

A way down a tree of routes takes one route of each level, and its path is put together from
those of the routes that it takes. Dispatch follows such a way as long as no route in front of
it starts the path of the request and every route on it has the request's method:

* **one level** — `firstHandler?_behind`: routes that do not start the path are passed by;
* **the way** — `firstHandler?_of_descends`: by induction along the way, dispatch ends at the
  route it leads to;
* **generated code** — `Compiler.serves_accumulated_path`. The methods do matter: a route inside
  one of another method is out of reach (`Compiler.subroute_out_of_reach`).
-/

namespace Blockwork

namespace Routing

/-- A route, and those in front of it on its level. -/
structure Step where
  earlier : List Route
  route : Route

/-- The steps lead down from these routes, each into the routes inside the one before. -/
inductive Descends : List Route → List Step → Prop where
  | done (routes : List Route) : Descends routes []
  | into {earlier later : List Route} {r : Route} {steps : List Step}
      (further : Descends r.inner steps) :
      Descends (earlier ++ r :: later) (⟨earlier, r⟩ :: steps)

/-- The paths of the routes on a way down, put together. -/
def pathOf (steps : List Step) : String :=
  String.join (steps.map fun step => step.route.path)

/-- The path behind `base` starts the path of a request. -/
def Route.Starts (url base : String) (r : Route) : Prop :=
  (base ++ r.path).toList <+: url.toList

/-- No route in front of the way starts the path. -/
def Unclaimed (url base : String) : List Step → Prop
  | [] => True
  | step :: rest =>
    (∀ r ∈ step.earlier, ¬ r.Starts url base) ∧ Unclaimed url (base ++ step.route.path) rest

instance (url base : String) (r : Route) : Decidable (r.Starts url base) :=
  inferInstanceAs (Decidable (_ <+: _))

instance (url : String) : (base : String) → (steps : List Step) →
    Decidable (Unclaimed url base steps)
  | _, [] => isTrue trivial
  | base, step :: rest =>
    have := instDecidableUnclaimed url (base ++ step.route.path) rest
    inferInstanceAs (Decidable (_ ∧ _))

variable {q : Request} {base : String}

/-! ### Dispatch along a way -/

theorem handlerFor?_eq (r : Route) :
    r.handlerFor? q base =
      if r.Starts q.path base ∧ r.method = q.method then
        some ((firstHandler? q (base ++ r.path) r.inner).getD r.handler)
      else none := by
  cases r
  rw [Route.handlerFor?]
  rfl

theorem handlerFor?_of_not_starts {r : Route} (passed : ¬ r.Starts q.path base) :
    r.handlerFor? q base = none := by
  rw [handlerFor?_eq, if_neg]
  exact fun taken => passed taken.1

theorem handlerFor?_of_other_method {r : Route} (other : r.method ≠ q.method) :
    r.handlerFor? q base = none := by
  rw [handlerFor?_eq, if_neg]
  exact fun taken => other taken.2

/-- Routes that do not start the path are passed by. -/
theorem firstHandler?_behind {earlier : List Route}
    (passed : ∀ r ∈ earlier, ¬ r.Starts q.path base) (routes : List Route) :
    firstHandler? q base (earlier ++ routes) = firstHandler? q base routes := by
  induction earlier with
  | nil => rfl
  | cons r rest ih =>
    rw [List.cons_append, firstHandler?, handlerFor?_of_not_starts (passed r List.mem_cons_self)]
    exact ih fun other mem => passed other (List.mem_cons_of_mem _ mem)

/-- A route that takes the request ends the search on its level. -/
theorem firstHandler?_of_starts {r : Route} {later : List Route} (starts : r.Starts q.path base)
    (method : r.method = q.method) :
    firstHandler? q base (r :: later) =
      some ((firstHandler? q (base ++ r.path) r.inner).getD r.handler) := by
  rw [firstHandler?, handlerFor?_eq, if_pos ⟨starts, method⟩]

theorem starts_of_path {r : Route} {behind : String} (path : q.path = base ++ r.path ++ behind) :
    r.Starts q.path base := by
  refine ⟨behind.toList, ?_⟩
  rw [path]
  exact String.toList_append.symm

/-- A request for the path of a way with the method of all routes on it gets the handler of the
last, unless a route in front of the way or inside the last one starts its path. -/
theorem firstHandler?_of_descends {above : List Step} {earlier : List Route} {target : Route}
    {routes : List Route} (descends : Descends routes (above ++ [⟨earlier, target⟩]))
    (path : q.path = base ++ pathOf (above ++ [⟨earlier, target⟩]))
    (methods : ∀ step ∈ above ++ [⟨earlier, target⟩], step.route.method = q.method)
    (unclaimed : Unclaimed q.path base (above ++ [⟨earlier, target⟩]))
    (own : ∀ r ∈ target.inner, ¬ r.Starts q.path q.path) :
    firstHandler? q base routes = some target.handler := by
  induction above generalizing routes base with
  | nil =>
    have method := methods _ List.mem_cons_self
    have whole : q.path = base ++ target.path := by
      rw [path]
      simp [pathOf]
    have starts : target.Starts q.path base := ⟨[], by rw [List.append_nil, whole]⟩
    have nothing : firstHandler? q (base ++ target.path) target.inner = none := by
      rw [← whole]
      have inner := firstHandler?_behind own []
      rwa [List.append_nil] at inner
    cases descends with
    | into =>
      rw [firstHandler?_behind unclaimed.1, firstHandler?_of_starts starts method, nothing]
      rfl
  | cons step rest ih =>
    obtain ⟨passed, beyond⟩ := unclaimed
    have behind : q.path = base ++ step.route.path ++ pathOf (rest ++ [⟨earlier, target⟩]) := by
      rw [path]
      simp [pathOf, String.append_assoc]
    have method := methods step List.mem_cons_self
    cases descends with
    | into further =>
      have found := ih further behind
        (fun other mem => methods other (List.mem_cons_of_mem _ mem)) beyond
      rw [firstHandler?_behind passed, firstHandler?_of_starts (starts_of_path behind) method,
        found]
      rfl

end Routing

/-! ### Generated routers -/

namespace Compiler

open Routing

/-- **Routes serve their accumulated paths.** A route group that holds routes only, at every
depth and with any handlers, is generated. A route in it whose handler says something gets the
requests for the path put together from the routes around it and its own, with its method,
provided that the routes around it have this method too and that no route in front of the way
down to it, and none inside it, starts the path. -/
theorem serves_accumulated_path (available : List String) (indent : String) (strict : Bool)
    {g : Block} (group : g.kind = "route_group")
    (routes : ∀ child ∈ g.sequenceIn "NAME",
      ∀ r, Catalogue.ofBuiltins.Reaches child r → r.TakesRequests) :
    ∃ s, (({ catalogue := .ofBuiltins, available, indent, strict } : Compiler).compile
          g).outcome = .ok s ∧
      s.code = handlerLayout indent (bodyOf (routesOf (g.sequenceIn "NAME"))) ∧
      ∀ (above : List Step) (earlier : List Route) (target : Route) (url start : String),
        Descends (routesOf (g.sequenceIn "NAME")) (above ++ [⟨earlier, target⟩]) →
        url = pathOf (above ++ [⟨earlier, target⟩]) →
        Text.isBlankText target.handler = false →
        (∀ step ∈ above, step.route.method = target.method) →
        Unclaimed url "" (above ++ [⟨earlier, target⟩]) →
        (∀ r ∈ target.inner, ¬ r.Starts url url) →
        callsOn ⟨target.method, url⟩ (bodyOf (routesOf (g.sequenceIn "NAME"))) start =
          [target.handler] := by
  let c : Compiler := { catalogue := .ofBuiltins, available, indent, strict }
  obtain ⟨s, made, code⟩ :=
    routeGroup_generates_layout (c := c) Catalogue.get?_ofBuiltins_id group routes
  refine ⟨s, made, code, ?_⟩
  intro above earlier target url start descends path shown methods unclaimed own
  have all : ∀ step ∈ above ++ [⟨earlier, target⟩], step.route.method = target.method := by
    intro step mem
    rcases List.mem_append.mp mem with inside | last
    · exact methods step inside
    · rw [List.mem_singleton.mp last]
  have whole : url = "" ++ pathOf (above ++ [⟨earlier, target⟩]) := by
    rw [path, String.empty_append]
  have found := firstHandler?_of_descends (q := ⟨target.method, url⟩) descends whole all
    unclaimed own
  rw [callsOn_bodyOf, found]
  show callsOf target.handler = [target.handler]
  unfold callsOf
  rw [shown]
  rfl

/-- The route `/users` inside `/api` serves `/api/users`, with `/shops` in front of the one and
`/users/7` in front of the other. -/
theorem serves_accumulated_path_of_nested :
    let users : Block :=
      { id := "u", kind := "route",
        fields := [("handler", .text "list(w, r)"), ("path", .text "/users")] }
    let user : Block :=
      { id := "v", kind := "route",
        fields := [("handler", .text "show(w,\n  r)"), ("path", .text "/users/7")] }
    let api : Block :=
      { id := "a", kind := "route", fields := [("path", .text "/api")],
        statements := [("sub", [user, users])] }
    let shops : Block := { id := "s", kind := "route", fields := [("path", .text "/shops")] }
    callsOn ⟨"GET", "/api/users"⟩ (bodyOf (routesOf [shops, api])) "" = ["list(w, r)"] := by
  intro users user api shops
  let g : Block := { id := "g", kind := "route_group", statements := [("NAME", [shops, api])] }
  have all : Block.everywhereInStatements (fun b => decide b.TakesRequests) g.statements = true :=
    by decide +kernel
  have routes : ∀ child ∈ g.sequenceIn "NAME",
      ∀ r, Catalogue.ofBuiltins.Reaches child r → r.TakesRequests := by
    intro child mem r reaches
    have everywhere := Block.everywhere_of_mem_sequence all mem
    exact of_decide_eq_true (reaches.contains.of_everywhere everywhere)
  obtain ⟨-, -, -, served⟩ := serves_accumulated_path [] "\t" true (g := g) rfl routes
  let way : List Step := [⟨[Route.ofBlock shops], Route.ofBlock api⟩]
  let last : Step := ⟨[Route.ofBlock user], Route.ofBlock users⟩
  have within : Descends (Route.ofBlock api).inner [last] :=
    @Descends.into [Route.ofBlock user] [] (Route.ofBlock users) [] (.done _)
  have descends : Descends (routesOf [shops, api]) (way ++ [last]) :=
    @Descends.into [Route.ofBlock shops] [] (Route.ofBlock api) [last] within
  exact served way last.earlier last.route "/api/users" "" descends (by decide +kernel)
    (by decide +kernel) (by decide +kernel) (by decide +kernel) (by decide +kernel)

/-- A route for POST inside one for GET: nothing else starts its path, and no request reaches
it. -/
theorem subroute_out_of_reach :
    let users : Block :=
      { id := "users", kind := "route",
        fields := [("handler", .text "users.Create(w, r)"), ("method", .text "POST"),
          ("path", .text "/users")] }
    let api : Block :=
      { id := "api", kind := "route",
        fields := [("handler", .text ""), ("method", .text "GET"), ("path", .text "/api")],
        statements := [("sub", [users])] }
    let way : List Step := [⟨[], Route.ofBlock api⟩, ⟨[], Route.ofBlock users⟩]
    Descends (routesOf [api]) way ∧ pathOf way = "/api/users" ∧
      (Route.ofBlock users).method = "POST" ∧
      (Route.ofBlock users).handler = "users.Create(w, r)" ∧
      Unclaimed "/api/users" "" way ∧ (Route.ofBlock users).inner = [] ∧
      ∀ q start, callsOn q (bodyOf (routesOf [api])) start = [] := by
  intro users api way
  have within : Descends (Route.ofBlock api).inner [⟨[], Route.ofBlock users⟩] :=
    @Descends.into [] [] (Route.ofBlock users) [] (.done _)
  refine ⟨@Descends.into [] [] (Route.ofBlock api) [_] within, by decide +kernel,
    by decide +kernel, by decide +kernel, by decide +kernel, rfl, ?_⟩
  intro q start
  have methods : (Route.ofBlock api).method = "GET" ∧ (Route.ofBlock users).method = "POST" := by
    decide +kernel
  have silent : callsOf (Route.ofBlock api).handler = [] := by decide +kernel
  rw [callsOn_bodyOf, routesOf, firstHandler?, handlerFor?_eq]
  by_cases taken : (Route.ofBlock api).Starts q.path "" ∧ (Route.ofBlock api).method = q.method
  · -- What has the method of the outer route has not that of the inner one.
    have other : (Route.ofBlock users).method ≠ q.method := by
      rw [methods.2, ← taken.2, methods.1]
      decide
    have passed : ∀ base, firstHandler? q base (Route.ofBlock api).inner = none := by
      intro base
      show firstHandler? q base [Route.ofBlock users] = none
      rw [firstHandler?, handlerFor?_of_other_method other, firstHandler?]
    rw [if_pos taken, passed]
    exact silent
  · rw [if_neg taken]
    rfl

end Compiler

end Blockwork
