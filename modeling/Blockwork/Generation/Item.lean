import Blockwork.Block.Basic
import Blockwork.BlockType.Recipe
import Blockwork.Generation.Holder
import Blockwork.Package.Item
import Blockwork.Source.Literal

/-!
# The code of calls, literals and recipes

A block of a package item puts the values in its slots together, a function's into a call and a
struct's into a literal. Slots without a value are left out. A block of a recipe follows the
recipe.
-/

namespace Blockwork

/-- The values in the slots of parameters, empty slots left out, each with its parameter. -/
def Holder.arguments (h : Holder) : List Parameter → Gen (List (Parameter × String))
  | [] => pure []
  | p :: rest => do
    let value ← h.valueCode p.name .loosest
    let others ← h.arguments rest
    pure (if value.isEmpty then others else (p, Source.requote value) :: others)

/-- The call with these arguments. Without arguments the function's name stands alone. -/
def CallItem.code (item : CallItem) (arguments : List (Parameter × String)) : String :=
  if arguments.isEmpty then s!"{item.qualifiedName}\n"
  else item.qualifiedName ++ "(" ++ Text.joinWith ", " (arguments.map (·.2)) ++ ")\n"

/-- The call of a function. -/
def CallItem.snippet (item : CallItem) (h : Holder) : Gen Snippet := do
  let arguments ← h.arguments item.parameters
  pure ((Snippet.inLines (item.code arguments)).relyingOn [item.package])

/-- The literal with these values for fields, or its address. -/
def LiteralItem.code (item : LiteralItem) (address : Bool)
    (arguments : List (Parameter × String)) : String :=
  let entries :=
    Text.joinWith ", " (arguments.map fun argument => s!"{argument.1.name}: {argument.2}")
  (if address then "&" else "") ++ item.qualifiedName ++ "\x7b" ++ entries ++ "\x7d"

/-- A struct literal, or its address. -/
def LiteralItem.snippet (item : LiteralItem) (h : Holder) : Gen Snippet := do
  let arguments ← h.arguments item.parameters
  let code := item.code (h.block.flagD addressField true) arguments
  pure ((Snippet.expression code .loosest).relyingOn [item.package])

/-- What the block of a recipe generates. A statement shows the packages noted so far in a
comment. -/
def Recipe.snippet (recipe : Recipe) (env : Surroundings) (h : Holder) : Gen Snippet := do
  let code ← Gen.lift (h.block.needText "code")
  Gen.note recipe.notes
  let value ← h.valueCode "X" recipe.outer
  let body ← h.indentedCode env "body"
  let used ← Gen.noted
  let seen := Text.joinWith " " used.members
  let snippet :=
    match recipe.order with
    | some order => Snippet.expression (code ++ value) order
    | none => Snippet.inLines s!"{code}{value} // {seen}\n{body}"
  pure ((snippet.relyingOn recipe.uses).asking recipe.imports)

end Blockwork
