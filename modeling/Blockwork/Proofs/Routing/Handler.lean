import Blockwork.Source.Literal
import Blockwork.Text.Lines

/-!
# Handlers of requests

The statements that generated request handlers are made of, their text in Go, and what running
them on a request does. A handler has one variable, the path up to which routes have matched. A
match test compares the path of the request with the variable and one more segment; an
assignment changes the variable for good, also for the statements behind the block it stands
in; a return ends the whole handler. Calls are the user's code, of which only is recorded that
it runs.
-/

namespace Blockwork.Routing

/-- A request as its handlers see it. -/
structure Request where
  method : String
  path : String
deriving DecidableEq

/-- A statement of a request handler. -/
inductive Statement where
  /-- Declares the variable, with the empty path in it. -/
  | startPath
  /-- Appends a segment to the variable. -/
  | extendPath (segment : String)
  /-- Runs the body when the request has the method and its path starts with the variable and
  the segment. -/
  | onMatch (segment method : String) (body : List Statement)
  /-- Runs the user's code. -/
  | call (code : String)
  /-- Ends the handler. -/
  | leave

/-! ### Text -/

/-- The first line of a match test. -/
def testLine (segment method : String) : String :=
  s!"if strings.HasPrefix(r.URL.Path, path+{Source.quote segment}) && " ++
    s!"r.Method == {Source.quote method} \x7b\n"

/-- The line that extends the variable. -/
def extensionLine (segment : String) : String :=
  s!"path = path + {Source.quote segment}\n"

mutual

/-- The lines of a statement. The body of a test is indented by one level. -/
def Statement.text (i : String) : Statement → String
  | .startPath => "path := \"\"\n"
  | .extendPath segment => extensionLine segment
  | .onMatch segment method body =>
    testLine segment method ++ Text.indent i (bodyText i body) ++ "\x7d\n"
  | .call code => code ++ "\n"
  | .leave => "return\n"

/-- The lines of statements that stand one after the other. -/
def bodyText (i : String) : List Statement → String
  | [] => ""
  | s :: rest => s.text i ++ bodyText i rest

end

/-- The text of a handler with this body. -/
def handlerText (i : String) (body : List Statement) : String :=
  "apiHandler := func(w http.ResponseWriter, r *http.Request) \x7b\n" ++
    Text.indent i (bodyText i body) ++ "\x7d\n"

/-! ### Execution -/

/-- The variable, and the user's code that has run. -/
structure State where
  path : String
  ran : List String
deriving DecidableEq

/-- Where a handler goes on after a statement. -/
inductive Flow where
  | next
  | returned
deriving DecidableEq

/-- The path of the request starts with a text. -/
def Request.startsWith (q : Request) (start : String) : Bool :=
  start.toList.isPrefixOf q.path.toList

mutual

/-- Runs a statement. -/
def Statement.exec (q : Request) : Statement → State → State × Flow
  | .startPath, s => ({ s with path := "" }, .next)
  | .extendPath segment, s => ({ s with path := s.path ++ segment }, .next)
  | .onMatch segment method body, s =>
    if q.startsWith (s.path ++ segment) && q.method == method then execAll q body s
    else (s, .next)
  | .call code, s => ({ s with ran := s.ran ++ [code] }, .next)
  | .leave, s => (s, .returned)

/-- Runs statements one after the other, up to a return. -/
def execAll (q : Request) : List Statement → State → State × Flow
  | [], s => (s, .next)
  | first :: rest, s =>
    match first.exec q s with
    | (s, .next) => execAll q rest s
    | (s, .returned) => (s, .returned)

end

/-- The user's code that a handler runs on a request, whatever its variable holds at first. -/
def callsOn (q : Request) (body : List Statement) (start : String) : List String :=
  (execAll q body ⟨start, []⟩).1.ran

/-! ### Statements one after the other -/

theorem bodyText_append (i : String) (first second : List Statement) :
    bodyText i (first ++ second) = bodyText i first ++ bodyText i second := by
  induction first with
  | nil => exact String.empty_append.symm
  | cons s rest ih =>
    rw [List.cons_append, bodyText, bodyText, ih, String.append_assoc]

theorem execAll_append (q : Request) (first second : List Statement) (s : State) :
    execAll q (first ++ second) s =
      match execAll q first s with
      | (s, .next) => execAll q second s
      | (s, .returned) => (s, .returned) := by
  induction first generalizing s with
  | nil => rfl
  | cons statement rest ih =>
    rw [List.cons_append, execAll, execAll]
    cases statement.exec q s with
    | mk s flow =>
      cases flow with
      | next => exact ih s
      | returned => rfl

end Blockwork.Routing
