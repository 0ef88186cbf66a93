import Blockwork.BlockType.Builtin
import Blockwork.BlockType.Recipe
import Blockwork.Collection.NameMap
import Blockwork.Collection.NameSet
import Blockwork.Json.Writer
import Blockwork.Package.Item

/-!
# The catalogue of block types

A catalogue maps the names of block types to their descriptions and to what generates their
code. It also keeps the sections of the editor's palette in display order, and under which
names code refers to the packages of import paths. A later listing under a name replaces the
earlier one (`get?_add`), a later section with a title the earlier one.
-/

namespace Blockwork

/-- What generates the code of a block type. -/
inductive Generator where
  | builtin (b : Builtin)
  | call (item : CallItem)
  | literal (item : LiteralItem)
  | recipe (r : Recipe)
deriving DecidableEq

/-- A block type in the catalogue. -/
structure Listing where
  blockType : BlockType
  generator : Generator
deriving DecidableEq

/-- A section of the editor's palette. -/
structure PaletteSection where
  title : String
  hue : Nat
  types : List String
deriving DecidableEq

/-- Puts a section in the place of the one with the same title, or at the end. -/
def PaletteSection.putInto (s : PaletteSection) : List PaletteSection → List PaletteSection
  | [] => [s]
  | first :: rest => if first.title = s.title then s :: rest else first :: s.putInto rest

/-- The block types of a session. -/
structure Catalogue where
  types : NameMap Listing := {}
  palette : List PaletteSection := []
  /-- The names under which code refers to the packages of import paths. -/
  knownNames : NameMap NameSet := {}
deriving DecidableEq

namespace Catalogue

instance : Inhabited Catalogue := ⟨{}⟩

/-- The listing of a block type. -/
def get? (c : Catalogue) (id : String) : Option Listing :=
  c.types.get? id

/-- Lists a block type. -/
def add (c : Catalogue) (listing : Listing) : Catalogue :=
  { c with types := c.types.insert listing.blockType.id listing }

/-- Lists a recipe. -/
def addRecipe (c : Catalogue) (recipe : Recipe) : Catalogue :=
  c.add ⟨recipe.blockType, .recipe recipe⟩

/-- Puts a section into the palette, in the place of one with the same title. -/
def putSection (c : Catalogue) (s : PaletteSection) : Catalogue :=
  { c with palette := s.putInto c.palette }

/-- Records a name under which code refers to the package of an import path. -/
def knowAs (c : Catalogue) (path name : String) : Catalogue :=
  let path := Text.trim path
  let names := (c.knownNames.get? path).getD .empty
  { c with knownNames := c.knownNames.insert path (names.insert name) }

/-- The catalogue of the built-in types. -/
def ofBuiltins : Catalogue :=
  Builtin.all.foldl (fun c b => c.add ⟨b.blockType, .builtin b⟩) {}

/-- The palette as text for the editor. -/
def paletteText (c : Catalogue) : String :=
  Json.pretty <| .array <| c.palette.map fun s =>
    .object [("name", .string s.title), ("colour", .natural s.hue),
      ("block_types", .strings s.types)]

theorem get?_add (c : Catalogue) (listing : Listing) (id : String) :
    (c.add listing).get? id = if listing.blockType.id = id then some listing else c.get? id :=
  NameMap.get?_insert _ _ _ _

@[simp] theorem get?_knowAs (c : Catalogue) (path name id : String) :
    (c.knowAs path name).get? id = c.get? id := rfl

end Catalogue

end Blockwork
