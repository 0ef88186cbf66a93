import Blockwork.Failure
import Blockwork.Json.Decode

/-!
# Package entries

What a metadata service tells about the functions and structs of a package, and the JSON texts
in which it comes. Every member of an entry may be missing. An `EntrySource` has these texts.
-/

namespace Blockwork

/-- A function of a package. -/
structure FunctionEntry where
  package : String := ""
  name : String := ""
  /-- Names and types, separated by commas. -/
  parameters : String := ""
  comment : String := ""
  returns : String := ""
deriving DecidableEq

/-- A field of a struct. -/
structure FieldEntry where
  name : String := ""
  type : String := ""
deriving DecidableEq

/-- A struct of a package. -/
structure StructEntry where
  package : String := ""
  name : String := ""
  fields : List FieldEntry := []
  comment : String := ""
deriving DecidableEq

/-- A text member that is empty when it is missing. -/
def Json.textMember : Option Json → Option String :=
  withDefault text? ""

/-- Reads a function entry. -/
def FunctionEntry.ofJson? (j : Json) : Option FunctionEntry := do
  let [package, name, parameters, comment, returns] ←
    j.record? ["namespace", "name", "params", "comment", "returns"] | none
  some
    { package := ← Json.textMember package
      name := ← Json.textMember name
      parameters := ← Json.textMember parameters
      comment := ← Json.textMember comment
      returns := ← Json.textMember returns }

/-- Reads a field of a struct. -/
def FieldEntry.ofJson? (j : Json) : Option FieldEntry := do
  let [name, type] ← j.record? ["name", "type"] | none
  some { name := ← Json.textMember name, type := ← Json.textMember type }

/-- Reads a struct entry. -/
def StructEntry.ofJson? (j : Json) : Option StructEntry := do
  let [package, name, fields, comment] ←
    j.record? ["namespace", "name", "fields", "comment"] | none
  some
    { package := ← Json.textMember package
      name := ← Json.textMember name
      fields := ← Json.withDefault (fun j => j.items?.bind (·.mapM FieldEntry.ofJson?)) [] fields
      comment := ← Json.textMember comment }

/-- Reads a text that lists entries. -/
def readEntries {α : Type} (read : Json → Option α) (text : String) : Except Failure (List α) :=
  match ((Json.parse? text).bind Json.items?).bind (·.mapM read) with
  | some entries => .ok entries
  | none => .error .badDocument

/-- Reads a text that lists functions. -/
def FunctionEntry.readAll : String → Except Failure (List FunctionEntry) :=
  readEntries ofJson?

/-- Reads a text that lists structs. -/
def StructEntry.readAll : String → Except Failure (List StructEntry) :=
  readEntries ofJson?

/-- Where the texts come from that list the functions and the structs of a package, by the
package's import path. -/
structure EntrySource where
  functions : String → Except Failure String
  structs : String → Except Failure String

end Blockwork
