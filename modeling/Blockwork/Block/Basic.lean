import Blockwork.Collection.Entries
import Blockwork.Failure
import Blockwork.Text.Blank

/-!
# Blocks

A visual program is a forest of blocks. A `Block` has a type, fields that hold scalar values,
value slots that hold one block each, and statement inputs that hold a sequence of blocks. The
three maps are lists of entries in ascending order of their names (`Block.Ordered`).
Reading a field without a default fails when the field is missing, and reading a number fails when
it holds something else.
-/

namespace Blockwork

/-- The scalar value of an editable field. -/
inductive Scalar where
  | flag (value : Bool)
  | number (value : Binary64)
  | text (value : String)
deriving DecidableEq

/-- A place on the canvas. -/
structure Point where
  x : Binary64
  y : Binary64
deriving DecidableEq

/-- A block with everything plugged into it. -/
structure Block where
  id : String
  kind : String
  position : Option Point := none
  fields : List (String × Scalar) := []
  values : List (String × Block) := []
  statements : List (String × List Block) := []
deriving Inhabited

/-- A field's value as the editor shows it. -/
def Scalar.shown : Scalar → String
  | .flag true => "TRUE"
  | .flag false => "FALSE"
  | .number x => x.numberText
  | .text s => s

namespace Block

/-- The value of a field. -/
def scalar? (b : Block) (name : String) : Option Scalar :=
  Entries.get? name b.fields

/-- The text of a field, or a default. -/
def textD (b : Block) (name default : String) : String :=
  match b.scalar? name with
  | some value => value.shown
  | none => default

/-- Whether a checkbox field is ticked. Editors store its state as a truth value or as the
word TRUE; a number counts as ticked unless it is zero. -/
def flagD (b : Block) (name : String) (default : Bool) : Bool :=
  match b.scalar? name with
  | none => default
  | some (.flag value) => value
  | some (.number x) => !x.isZero
  | some (.text s) => s.toList.map Char.toLower == "true".toList

/-- The text of a field that has to be there. -/
def needText (b : Block) (name : String) : Except Failure String :=
  match b.scalar? name with
  | some value => .ok value.shown
  | none => .error (.missingField b.id name)

/-- The number in a field, or a default. A text counts as the number it spells, with blanks
around it ignored. -/
def numberD (b : Block) (name : String) (default : Binary64) : Except Failure Binary64 :=
  match b.scalar? name with
  | none => .ok default
  | some (.number x) => .ok x
  | some (.text s) =>
    match Binary64.ofText? (Text.trim s) with
    | some x => .ok x
    | none => .error (.badField b.id name (.notNumber s))
  | some (.flag _) => .error (.badField b.id name .checkbox)

/-- The block in a value slot. -/
def plugged? (b : Block) (input : String) : Option Block :=
  Entries.get? input b.values

/-- The blocks in a statement input. -/
def sequenceIn (b : Block) (input : String) : List Block :=
  (Entries.get? input b.statements).getD []

/-- Sets a field. -/
def setField (b : Block) (name : String) (value : Scalar) : Block :=
  { b with fields := Entries.insert name value b.fields }

/-- Plugs a block into a value slot; a block that is there is replaced. -/
def plugIn (b : Block) (input : String) (child : Block) : Block :=
  { b with values := Entries.insert input child b.values }

/-- Appends a block to a statement input. -/
def attach (b : Block) (input : String) (child : Block) : Block :=
  { b with statements := Entries.insert input (b.sequenceIn input ++ [child]) b.statements }

mutual

/-- The names of fields, slots and inputs ascend in the block and in all blocks inside it. -/
def Ordered : Block → Prop
  | ⟨_, _, _, fields, values, statements⟩ =>
    Entries.Ascending fields ∧ Entries.Ascending values ∧ Entries.Ascending statements ∧
      OrderedValues values ∧ OrderedStatements statements

/-- `Ordered` for the blocks in value slots. -/
def OrderedValues : List (String × Block) → Prop
  | [] => True
  | (_, b) :: rest => b.Ordered ∧ OrderedValues rest

/-- `Ordered` for the blocks in statement inputs. -/
def OrderedStatements : List (String × List Block) → Prop
  | [] => True
  | (_, bs) :: rest => OrderedSequence bs ∧ OrderedStatements rest

/-- `Ordered` for the blocks of one sequence. -/
def OrderedSequence : List Block → Prop
  | [] => True
  | b :: rest => b.Ordered ∧ OrderedSequence rest

end

end Block

end Blockwork
