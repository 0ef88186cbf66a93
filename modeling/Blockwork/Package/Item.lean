import Blockwork.BlockType.Basic
import Blockwork.Package.Entry
import Blockwork.Package.Parameter
import Blockwork.Text.Letter
import Blockwork.Text.Lines

/-!
# Package items

An entry whose names are all in order becomes an item, the base of a block type: a `CallItem`
for a function, a `LiteralItem` for a struct. `PackageItem` is what the two have in common. A
block type is named after the package and the item, joined by an underscore. It presents
itself with the entry's doc comment, without the comment marks and blank lines (`commentText`).
-/

namespace Blockwork

/-! ### Doc comments -/

/-- Without a given start, if the text has it. -/
def dropStart (start cs : List Char) : List Char :=
  if start.isPrefixOf cs then cs.drop start.length else cs

/-- Without a given end, if the text has it. -/
def dropEnd (ending cs : List Char) : List Char :=
  if ending.isSuffixOf cs then cs.take (cs.length - ending.length) else cs

/-- One line of a comment without its marks and the blanks around it. -/
def commentLine (line : List Char) : List Char :=
  let bare := Text.trimWhere Text.isBlank line
  Text.trimWhere Text.isBlank <|
    dropEnd ['*', '/'] (dropStart ['/', '*'] (dropStart ['/', '/'] bare))

/-- The text of a doc comment: its lines without marks, blank ones left out. -/
def commentText (comment : String) : String :=
  let cleaned := (Text.cut '\n' comment.toList).map commentLine
  Text.joinWith "\n" ((cleaned.filter fun line => !line.isEmpty).map String.ofList)

/-! ### Items -/

/-- What items have in common: what they are called, the slots that they give a block, and how
the block type presents itself. -/
structure PackageItem where
  package : String
  name : String
  parameters : List Parameter
  doc : String
  help : String
  hue : Nat
deriving DecidableEq

namespace PackageItem

/-- The first fault among parameters that stand behind those with the names `seen`. -/
def parameterFault? (seen : List String) : List Parameter → Option EntryFault
  | [] => none
  | p :: rest =>
    if !Text.isIdentifier p.name then some (.parameter p.name)
    else if p.name ∈ seen then some (.repeated p.name)
    else parameterFault? (p.name :: seen) rest

/-- The first fault among the names: the package's, the item's own, then the parameters' in
their order, none of which may repeat an earlier one. -/
def fault? (item : PackageItem) : Option EntryFault :=
  if !Text.isIdentifier item.package then some (.package item.package)
  else if !Text.isIdentifier item.name then some (.item item.name)
  else parameterFault? [] item.parameters

/-- The item, or what is wrong with its names. -/
def check (item : PackageItem) : Except Failure PackageItem :=
  match item.fault? with
  | some fault => .error (.badEntry s!"{item.package}.{item.name}" fault)
  | none => .ok item

/-- The name of the item's block type. -/
def typeName (item : PackageItem) : String :=
  s!"{item.package}_{item.name}"

/-- How code refers to the item. -/
def qualifiedName (item : PackageItem) : String :=
  s!"{item.package}.{item.name}"

/-- The value slots of the item's block type, one for each parameter. -/
def slots (item : PackageItem) : List Input :=
  item.parameters.map fun p => .value p.name p.label p.takesText

end PackageItem

/-- A function that blocks can call. -/
structure CallItem extends PackageItem where
  returns : String
deriving DecidableEq

namespace CallItem

/-- The item of a function entry. -/
def ofEntry (e : FunctionEntry) (help : String) (hue : Nat) : Except Failure CallItem :=
  -- The names are taken as they stand: a blank beside one makes it no identifier.
  let item : PackageItem :=
    { package := e.package
      name := e.name
      parameters := Parameter.readList e.parameters
      doc := commentText e.comment
      help
      hue }
  item.check.map fun item => { item with returns := Text.trim e.returns }

/-- The block type: a statement with a slot for each parameter. -/
def blockType (item : CallItem) : BlockType where
  id := item.typeName
  label := item.name
  shape := .statement
  inputs := item.slots
  hue := item.hue
  tooltip := item.doc
  help := item.help

end CallItem

/-- A struct that blocks can make a literal of. -/
structure LiteralItem extends PackageItem
deriving DecidableEq

namespace LiteralItem

/-- The checkbox that says whether a literal's address is taken. -/
def addressField : String := "pointer"

/-- The fields of an entry that have a name, without blanks around names and types. -/
def parametersOf (fields : List FieldEntry) : List Parameter :=
  (fields.filter fun f => !Text.isBlankText f.name).map fun f =>
    ⟨Text.trim f.name, Text.trim f.type⟩

/-- The item of a struct entry. -/
def ofEntry (e : StructEntry) (help : String) (hue : Nat) : Except Failure LiteralItem :=
  let item : PackageItem :=
    { package := e.package
      name := e.name
      parameters := parametersOf e.fields
      doc := commentText e.comment
      help
      hue }
  item.check.map fun item => { item with }

/-- The block type: a value with a slot for each field, and a checkbox for the address. -/
def blockType (item : LiteralItem) : BlockType where
  id := item.typeName
  label := item.name
  shape := .value
  inputs := item.slots ++ [.field addressField "Pointer" (.checkbox true)]
  hue := item.hue
  tooltip := item.doc
  help := item.help

end LiteralItem

end Blockwork
