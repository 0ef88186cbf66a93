import Blockwork.BlockType.Basic

/-!
# The built-in block types

The block types that every session has: entry points of Go programs, the skeleton of a web
server, routes, hooks for start and shutdown, map literals, and basic values.
-/

namespace Blockwork

/-- The built-in block types. -/
inductive Builtin where
  | require
  | main
  | server
  | routeGroup
  | route
  | onStart
  | onShutdown
  | line
  | map
  | mapField
  | handler
  | text
  | number
  | boolean
deriving DecidableEq, Repr

/-- The request methods that a route can serve. -/
def requestMethods : List String :=
  ["GET", "PUT", "PATCH", "POST", "DELETE", "OPTIONS"]

namespace Builtin

/-- The port of a server that names none. -/
def defaultPort : Binary64 := .ofNat 8080

/-- The host of a server that names none. -/
def defaultHost : String := "127.0.0.1"

/-- The path of a route that names none. -/
def defaultPath : String := "/hello"

/-- The key of a map entry that names none. -/
def defaultKey : String := "key_name"

/-- Every built-in, in the order in which they are listed. -/
def all : List Builtin :=
  [require, main, server, routeGroup, route, onStart, onShutdown, line, map, mapField, handler,
    text, number, boolean]

/-- The description of a built-in type. -/
def blockType : Builtin → BlockType
  | require =>
    { id := "require", label := "Import", shape := .statement
      inputs := [.value "VALUE" "Import" true]
      hue := 230, tooltip := "Import Go package" }
  | main =>
    { id := "main", label := "Main", shape := .root
      inputs := [.statement "children" "Main"]
      hue := 105, tooltip := "Defines a program's main function" }
  | server =>
    { id := "server", label := "Server", shape := .root
      inputs := [.statement "children" "Server",
        .field "port" "Port" (.number defaultPort),
        .field "hostname" "Hostname" (.text defaultHost)]
      hue := 105, tooltip := "Defines a server root" }
  | routeGroup =>
    { id := "route_group", label := "Route Group", shape := .statement
      inputs := [.statement "NAME" "Route Group"]
      hue := 345, tooltip := "Define a Web api route group" }
  | route =>
    { id := "route", label := "Route", shape := .statement
      inputs := [.field "path" "Path" (.text defaultPath),
        .field "method" "Method" (.dropdown requestMethods),
        .statement "sub" "Sub routes",
        .field "handler" "Handler" (.text "pkg.Handler(w, r)")]
      hue := 345, tooltip := "Individual route" }
  | onStart =>
    { id := "on_start", label := "On Server start", shape := .statement
      inputs := [.statement "NAME" "On Server start"]
      hue := 230, tooltip := "Code to run on server boot" }
  | onShutdown =>
    { id := "on_shutdown", label := "On Server shutdown", shape := .statement
      inputs := [.statement "NAME" "On Server shutdown"]
      hue := 230, tooltip := "Code to run on server exit" }
  | line =>
    { id := "go", label := "Go", shape := .statement
      inputs := [.field "line" "Go" (.text "println(\"Sample\")")]
      hue := 230, tooltip := "Line of Go code" }
  | map =>
    { id := "interface", label := "Map", shape := .value
      inputs := [.statement "ints" "Map"]
      hue := 230, tooltip := "Go interface" }
  | mapField =>
    { id := "field", label := "Field", shape := .statement
      inputs := [.field "key" "Key" (.text defaultKey), .value "NAME" "Value" false]
      hue := 230, tooltip := "Go interface field" }
  | handler =>
    { id := "handler", label := "HTTP Handler", shape := .statement
      inputs := [.field "path" "Path" (.text "/"), .field "func" "Handler" (.text "pkg.handler")]
      hue := 45, tooltip := "Adds a handler to your server" }
  | text =>
    { id := "text", label := "Text", shape := .value
      inputs := [.field "TEXT" "" (.text "")]
      hue := 160, tooltip := "A letter, word, or line of text" }
  | number =>
    { id := "math_number", label := "Number", shape := .value
      inputs := [.field "NUM" "" (.number .zero)]
      hue := 230, tooltip := "A number" }
  | boolean =>
    { id := "logic_boolean", label := "Boolean", shape := .value
      inputs := [.field "BOOL" "" (.dropdown ["TRUE", "FALSE"])]
      hue := 210, tooltip := "Returns either true or false" }

end Builtin

end Blockwork
