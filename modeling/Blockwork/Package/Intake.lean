import Blockwork.Catalogue
import Blockwork.Import.Path
import Blockwork.Settings

/-!
# Taking in the entries of a package

Lists a block type for each entry whose names are in order, records the names that the entries
give to their package, and puts the section of the package into the palette. Entries without a
name are passed over; an `Intake` tells of the others, either with the block type they became
or with the reason why they became none.
-/

namespace Blockwork

/-- What became of the entries of a package. -/
structure Intake where
  accepted : List String := []
  refused : List String := []
deriving DecidableEq, Inhabited

/-- Both intakes, one after the other. -/
protected def Intake.append (a b : Intake) : Intake :=
  ⟨a.accepted ++ b.accepted, a.refused ++ b.refused⟩

instance : Append Intake := ⟨Intake.append⟩

/-- An entry in a form that the catalogue takes: the name that it gives to its package, and its
block type. -/
structure Candidate where
  package : String
  listing : Listing

/-- The candidate of a function entry. -/
def FunctionEntry.candidate (e : FunctionEntry) (help : String) (hue : Nat) :
    Except Failure Candidate :=
  (CallItem.ofEntry e help hue).map fun item =>
    ⟨item.package, item.blockType, .call item⟩

/-- The candidate of a struct entry. -/
def StructEntry.candidate (e : StructEntry) (help : String) (hue : Nat) :
    Except Failure Candidate :=
  (LiteralItem.ofEntry e help hue).map fun item =>
    ⟨item.package, item.blockType, .literal item⟩

namespace Catalogue

/-- Takes in one entry. -/
def takeEntry (path : String) (state : Catalogue × Intake) (entry : Except Failure Candidate) :
    Catalogue × Intake :=
  let (catalogue, intake) := state
  match entry with
  | .ok candidate =>
    ((catalogue.knowAs path candidate.package).add candidate.listing,
      { intake with accepted := intake.accepted ++ [candidate.listing.blockType.id] })
  | .error failure => (catalogue, { intake with refused := intake.refused ++ [failure.message] })

/-- Takes in the entries of a package; its section lists the block types they became. -/
def takeEntries (c : Catalogue) (path title : String) (hue : Nat)
    (entries : List (Except Failure Candidate)) : Catalogue × Intake :=
  -- An entry that comes back replaces its block type, and is listed each time.
  let (c, intake) := entries.foldl (takeEntry path) (c, {})
  (c.putSection ⟨title, hue, intake.accepted⟩, intake)

/-- Takes in the functions of the package at an index of the user's selection. -/
def takeFunctions (c : Catalogue) (path : String) (index : Nat) (entries : List FunctionEntry)
    (settings : Settings) : Catalogue × Intake :=
  let hue := settings.functionHueAt index
  c.takeEntries path (ImportPath.guessedName path) hue <|
    (entries.filter fun e => !Text.isBlankText e.name).map (·.candidate path hue)

/-- Takes in the structs of the package at an index of the user's selection. -/
def takeStructs (c : Catalogue) (path : String) (index : Nat) (entries : List StructEntry)
    (settings : Settings) : Catalogue × Intake :=
  let hue := settings.structHueAt index
  c.takeEntries path s!"{ImportPath.guessedName path} types" hue <|
    (entries.filter fun e => !Text.isBlankText e.name).map (·.candidate path hue)

end Catalogue

end Blockwork
