import Blockwork.Block.Basic
import Blockwork.BlockType.Builtin
import Blockwork.Generation.Holder
import Blockwork.Source.Qualifiers

/-!
# The code of built-in blocks

`Builtin.snippet` gives each built-in type its action. Text that users enter reaches the code
only as a string literal, except in three fields whose text is code: the line of a line block
and the handlers of route and handler blocks. The names that such code qualifies are noted as
packages.
-/

namespace Blockwork

namespace Builtin

/-- Notes the packages that a piece of code refers to. -/
def noteQualifiers (code : String) : Gen Unit :=
  Gen.note (Source.qualifiers code).members

/-- Asks for an import by path, unless the path is available to entry points anyway. -/
def requireSnippet (env : Surroundings) (h : Holder) : Gen Snippet := do
  let value ← h.valueCode "VALUE" .atomic
  if value.isEmpty then pure {}
  else
    match Source.literalText? value with
    | none => Gen.fail (.badField h.block.id "VALUE" (.notLiteral value))
    | some path =>
      if Text.isBlankText path || env.isAvailable path then pure {}
      else pure ((Snippet.inLines "").asking [path])

/-- The main function around its body. -/
def mainCode (body : String) : String :=
  s!"func main() \x7b\n{body}\x7d\n"

/-- The main function, with the imports that its body needs. -/
def mainSnippet (env : Surroundings) (h : Holder) : Gen Snippet := do
  let body ← h.indentedCode env "children"
  let imports ← env.neededImports []
  pure ((Snippet.inLines (mainCode body)).asking imports)

/-- The port of a server: a whole number of at most sixteen bits. -/
def portOf (b : Block) : Except Failure Int := do
  let port ← b.numberD "port" defaultPort
  match port.toInt? with
  | some n =>
    if 0 ≤ n ∧ n ≤ 65535 then .ok n else .error (.badField b.id "port" (.notPort port))
  | none => .error (.badField b.id "port" (.notPort port))

/-- The main function of a server: its address, the code in it, and the loop that serves. -/
def serverCode (i address body : String) : String :=
  "func main() \x7b\n" ++
  s!"{i}h := &http.Server\x7bAddr: {address}\x7d\n\n" ++
  (if body.isEmpty then "" else body ++ "\n") ++
  s!"{i}http.HandleFunc(\"/\", apiHandler)\n\n" ++
  s!"{i}err := h.ListenAndServe()\n" ++
  s!"{i}if err != nil \x7b\n" ++
  s!"{i}{i}log.Println(err)\n" ++
  s!"{i}\x7d\n" ++
  "\x7d\n"

/-- A server, with the imports that it needs. -/
def serverSnippet (env : Surroundings) (h : Holder) : Gen Snippet := do
  let port ← Gen.lift (portOf h.block)
  let host := Text.trim (h.block.textD "hostname" defaultHost)
  let body ← h.indentedCode env "children"
  -- Noted before the imports are looked up, so that they count among the packages in use.
  Gen.note ["http", "log"]
  let imports ← env.neededImports ["log"]
  let code := serverCode env.indent (Source.quote s!"{host}:{port}") body
  pure ((Snippet.inLines code).asking imports)

/-- A handler function around its routes, which share one path. -/
def routeGroupCode (i routes : String) : String :=
  "apiHandler := func(w http.ResponseWriter, r *http.Request) \x7b\n" ++
  (if routes.isEmpty then "" else s!"{i}path := \"\"\n" ++ routes) ++
  "\x7d\n"

/-- A handler function that tries its routes. -/
def routeGroupSnippet (env : Surroundings) (h : Holder) : Gen Snippet := do
  let routes ← h.indentedCode env "NAME"
  pure ((Snippet.inLines (routeGroupCode env.indent routes)).relyingOn ["http"])

/-- The request method that a route names, in any letter case and with blanks around it. The
singular of OPTIONS is accepted for it. -/
def methodOf (b : Block) : Except Failure String :=
  let named := (Text.trim (b.textD "method" "GET")).toList.map Char.toUpper
  let method := String.ofList named
  if method = "OPTION" then .ok "OPTIONS"
  else if method ∈ requestMethods then .ok method
  else .error (.badField b.id "method" (.unknownMethod method))

/-- The code of a route: a test of path and method, the routes inside it, and its handler. -/
def routeCode (i segment method inner handler : String) : String :=
  s!"if strings.HasPrefix(r.URL.Path, path+{segment}) && r.Method == {method} \x7b\n" ++
  s!"{i}path = path + {segment}\n" ++
  inner ++
  (if handler.isEmpty then "" else s!"{i}{handler}\n") ++
  s!"{i}return\n" ++
  "\x7d\n"

/-- A route. Its path is relative to the routes around it, so that a route `/users` inside
`/api` serves `/api/users`. -/
def routeSnippet (env : Surroundings) (h : Holder) : Gen Snippet := do
  let path := h.block.textD "path" defaultPath
  let method ← Gen.lift (methodOf h.block)
  let handler := Text.trim (h.block.textD "handler" "")
  -- A wrong method is told even when something is wrong with the routes inside.
  let inner ← h.indentedCode env "sub"
  noteQualifiers handler
  let code := routeCode env.indent (Source.quote path) (Source.quote method) inner handler
  pure ((Snippet.inLines code).relyingOn ["strings"])

/-- The statements in it, and nothing else. -/
def onStartSnippet (h : Holder) : Gen Snippet := do
  let code ← h.sequenceCode "NAME"
  pure (.inLines code)

/-- A function that waits for the interrupt, shuts the server down and runs its hooks. -/
def shutdownCode (i hooks : String) : String :=
  "stop := make(chan os.Signal, 1)\n" ++
  "signal.Notify(stop, os.Interrupt)\n\n" ++
  "go func() \x7b\n" ++
  s!"{i}<-stop\n" ++
  s!"{i}log.Println(\"Shutting down the server...\")\n\n" ++
  s!"{i}ctx, cancel := context.WithTimeout(context.Background(), 5*time.Second)\n" ++
  s!"{i}defer cancel()\n" ++
  s!"{i}h.Shutdown(ctx)\n\n" ++
  hooks ++
  s!"{i}log.Println(\"Server gracefully stopped\")\n" ++
  "\x7d()\n"

/-- What happens when the server is interrupted. -/
def onShutdownSnippet (env : Surroundings) (h : Holder) : Gen Snippet := do
  let hooks ← h.indentedCode env "NAME"
  let code := shutdownCode env.indent hooks
  pure ((Snippet.inLines code).relyingOn ["os", "signal", "log", "context", "time"])

/-- A line of code as it stands. -/
def lineSnippet (h : Holder) : Gen Snippet := do
  let code := h.block.textD "line" ""
  if Text.isBlankText code then pure {}
  else
    noteQualifiers code
    pure (.inLines s!"{code}\n")

/-- The literal of a map with these entries, each in a line of its own. -/
def mapCode (entries : String) : String :=
  if entries.isEmpty then "map[string]interface\x7b\x7d\x7b\x7d"
  else s!"map[string]interface\x7b\x7d\x7b\n{entries}\x7d"

/-- A map literal. -/
def mapSnippet (env : Surroundings) (h : Holder) : Gen Snippet := do
  let entries ← h.indentedCode env "ints"
  pure (.expression (mapCode entries) .loosest)

/-- An entry of a map; without a value it is nil. -/
def mapFieldCode (key value : String) : String :=
  key ++ ": " ++ (if value.isEmpty then "nil" else Source.requote value) ++ ",\n"

/-- An entry of a map literal. -/
def mapFieldSnippet (h : Holder) : Gen Snippet := do
  let key := h.block.textD "key" defaultKey
  let value ← h.valueCode "NAME" .loosest
  pure (.inLines (mapFieldCode (Source.quote key) value))

/-- The call that puts a handler under a path. -/
def handlerCode (path handler : String) : String :=
  s!"http.HandleFunc({path}, {handler})\n"

/-- A handler under a path; without the handler's text there is nothing to generate. -/
def handlerSnippet (h : Holder) : Gen Snippet := do
  let path := h.block.textD "path" "/"
  let handler := Text.trim (h.block.textD "func" "")
  if handler.isEmpty then pure {}
  else
    noteQualifiers handler
    pure ((Snippet.inLines (handlerCode (Source.quote path) handler)).relyingOn ["http"])

/-- A text as a string literal. -/
def textSnippet (h : Holder) : Gen Snippet :=
  pure (.expression (Source.quote (h.block.textD "TEXT" "")) .atomic)

/-- A finite number. -/
def numberSnippet (h : Holder) : Gen Snippet := do
  let x ← Gen.lift (h.block.numberD "NUM" .zero)
  if x.isFinite then
    pure (.expression x.numberText (if x.isNegative then .unary else .atomic))
  else Gen.fail (.badField h.block.id "NUM" (.notFinite x))

/-- A truth value. -/
def booleanSnippet (h : Holder) : Gen Snippet :=
  pure (.expression (if h.block.flagD "BOOL" true then "true" else "false") .atomic)

/-- What a built-in block generates. -/
def snippet (env : Surroundings) (h : Holder) : Builtin → Gen Snippet
  | require => requireSnippet env h
  | main => mainSnippet env h
  | server => serverSnippet env h
  | routeGroup => routeGroupSnippet env h
  | route => routeSnippet env h
  | onStart => onStartSnippet h
  | onShutdown => onShutdownSnippet env h
  | line => lineSnippet h
  | map => mapSnippet env h
  | mapField => mapFieldSnippet h
  | handler => handlerSnippet h
  | text => textSnippet h
  | number => numberSnippet h
  | boolean => booleanSnippet h

end Builtin

end Blockwork
