import Blockwork.Block.Basic
import Blockwork.Generation.Basic
import Blockwork.Import.Needed

/-!
# Blocks whose inputs are actions

A generator sees its block as a `Holder`: the block itself, and for each block plugged into it
the action that generates that one. Nothing is generated until a generator asks for it, so the
actions run in the order in which the generator asks.
-/

namespace Blockwork

/-- A block in a value slot, with the action that generates it. -/
structure Plug where
  block : Block
  action : Gen Snippet

/-- A block with the actions of the blocks plugged into it. -/
structure Holder where
  block : Block
  values : List (String × Plug)
  statements : List (String × List (Gen Snippet))

/-- What generators know besides their block. -/
structure Surroundings where
  /-- Import paths that entry points import when code refers to their packages. -/
  available : List String
  /-- The names under which code refers to the packages of import paths. -/
  knownNames : NameMap NameSet
  indent : String

/-- How the code of a snippet stands in a slot that asks for `outer`: in parentheses when it
binds looser than that. Code that is no expression has no place in a slot; no code at all does. -/
def Snippet.inSlot? (s : Snippet) (outer : Precedence) : Option String :=
  if s.code.isEmpty then some ""
  else s.order.map fun order => if order.bracketedIn outer then s!"({s.code})" else s.code

namespace Holder

/-- The code of the block in a value slot; an empty slot gives the empty text. -/
def valueCode (h : Holder) (input : String) (outer : Precedence) : Gen String :=
  match Entries.get? input h.values with
  | none => pure ""
  | some plug => do
    let snippet ← plug.action
    match snippet.inSlot? outer with
    | some code => pure code
    | none => Gen.fail (.notValue plug.block.id plug.block.kind input h.block.id)

/-- The code of a sequence of blocks, one after the other. -/
def codeOf : List (Gen Snippet) → Gen String
  | [] => pure ""
  | action :: rest => do
    let snippet ← action
    let code ← codeOf rest
    pure (snippet.code ++ code)

/-- The code of the blocks in a statement input. -/
def sequenceCode (h : Holder) (input : String) : Gen String :=
  codeOf ((Entries.get? input h.statements).getD [])

/-- The code of the blocks in a statement input, indented by one level. -/
def indentedCode (h : Holder) (env : Surroundings) (input : String) : Gen String := do
  let code ← h.sequenceCode input
  pure (Text.indent env.indent code)

end Holder

namespace Surroundings

/-- The import paths that the packages noted so far call for, and those of the packages that
are always needed. -/
def neededImports (env : Surroundings) (always : List String) : Gen (List String) := do
  let used ← Gen.noted
  pure (ImportPath.needed env.available used always env.knownNames)

/-- Whether entry points import a path when code refers to its package. -/
def isAvailable (env : Surroundings) (path : String) : Bool :=
  path ∈ env.available

end Surroundings

end Blockwork
