import Blockwork.BlockType.Basic
import Blockwork.Snippet.Precedence

/-!
# Recipes

A recipe is a block type of the user's own, given as data. Its blocks have a field with code, a
value slot and a statement input, and the recipe says how these are put together and which
packages and imports come with them.
-/

namespace Blockwork

/-- A block type of the user's own. -/
structure Recipe where
  id : String
  label : String
  shape : Shape
  /-- The strength of the value that its blocks make; without one they make statements. -/
  order : Option Precedence := none
  /-- The strength that the value slot asks for. -/
  outer : Precedence := .loosest
  /-- Packages that the code uses. -/
  uses : List String := []
  /-- Packages that are noted before the block's inputs are generated. -/
  notes : List String := []
  /-- Imports that the code asks for. -/
  imports : List String := []
  hue : Nat := defaultHue
  tooltip : String := ""
  help : String := ""
deriving DecidableEq

/-- The description of a recipe's block type. -/
def Recipe.blockType (r : Recipe) : BlockType where
  id := r.id
  label := r.label
  shape := r.shape
  inputs := [.field "code" "Code" (.text ""), .value "X" "X" false, .statement "body" "Body"]
  hue := r.hue
  tooltip := r.tooltip
  help := r.help

end Blockwork
