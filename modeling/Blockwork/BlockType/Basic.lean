import Blockwork.Decimal.Binary64

/-!
# Block types

What the editor knows of a type of block: how it connects to its neighbours, what inputs it
has, and how it looks.
-/

namespace Blockwork

/-- How a block connects to its neighbours. -/
inductive Shape where
  /-- Stands alone and makes a declaration. -/
  | root
  /-- Chains with the statements before and after it. -/
  | statement
  /-- Plugs into a value slot. -/
  | value
deriving DecidableEq, Repr

/-- How a field is edited, and what it holds at first. -/
inductive Widget where
  | text (default : String)
  | number (default : Binary64)
  | checkbox (default : Bool)
  | dropdown (options : List String)
deriving DecidableEq

/-- What an input takes. -/
inductive Socket where
  /-- One value block; `takesText` marks slots for strings. -/
  | value (takesText : Bool)
  /-- A sequence of statement blocks. -/
  | statement
  /-- A scalar that is edited in the block itself. -/
  | field (widget : Widget)
deriving DecidableEq

/-- An input of a block type. -/
structure Input where
  name : String
  label : String
  kind : Socket
deriving DecidableEq

namespace Input

/-- A value slot. -/
def value (name label : String) (takesText : Bool) : Input :=
  ⟨name, label, .value takesText⟩

/-- A statement input. -/
def statement (name label : String) : Input :=
  ⟨name, label, .statement⟩

/-- An editable field. -/
def field (name label : String) (widget : Widget) : Input :=
  ⟨name, label, .field widget⟩

end Input

/-- The hue of block types that choose none, in degrees. -/
def defaultHue : Nat := 230

/-- The description of a block type. -/
structure BlockType where
  id : String
  label : String
  shape : Shape
  inputs : List Input := []
  /-- The hue, in degrees. -/
  hue : Nat := defaultHue
  tooltip : String := ""
  help : String := ""
deriving DecidableEq

namespace BlockType

/-- Whether the type declares a value slot of this name. -/
def hasValue (t : BlockType) (name : String) : Bool :=
  t.inputs.any fun input => input.name = name && input.kind matches .value _

/-- Whether the type declares a statement input of this name. -/
def hasStatement (t : BlockType) (name : String) : Bool :=
  t.inputs.any fun input => input.name = name && input.kind matches .statement

/-- Whether the type declares a field of this name. -/
def hasField (t : BlockType) (name : String) : Bool :=
  t.inputs.any fun input => input.name = name && input.kind matches .field _

end BlockType

end Blockwork
