import Blockwork.Block.Program
import Blockwork.Failure
import Blockwork.Json.Decode
import Blockwork.Json.Writer

/-!
# Programs as text

The JSON form of a program. A block is the record of its identity, type, position, fields,
value slots and statement inputs; the position and empty maps are left out when it is written,
and may be missing when it is read. Reading enters nested blocks only as deep as documents may
nest, which also bounds its recursion.
-/

namespace Blockwork

/-- The document of a field's value. -/
def Scalar.toJson : Scalar → Json
  | .flag b => .bool b
  | .number x => .real x
  | .text s => .string s

/-- Reads a field's value. -/
def Scalar.ofJson? : Json → Option Scalar
  | .bool b => some (.flag b)
  | .number n => n.toBinary64?.map .number
  | .string s => some (.text s)
  | _ => none

/-- The document of a position. -/
def Point.toJson (p : Point) : Json :=
  .object [("x", .real p.x), ("y", .real p.y)]

/-- Reads a position. -/
def Point.ofJson? (j : Json) : Option Point := do
  let [x, y] ← j.record? ["x", "y"] | none
  some ⟨← Json.required Json.real? x, ← Json.required Json.real? y⟩

/-- Reads a position that may be missing or `null`; it takes one level of the room. -/
def Point.read? (room : Nat) : Option Json → Option (Option Point)
  | none => some none
  | some .null => some none
  | some j => if room = 0 then none else (Point.ofJson? j).map some

namespace Block

/-- The member of a map, left out when the map is empty. -/
def unlessEmpty (name : String) (members : List (String × Json)) : List (String × Json) :=
  if members.isEmpty then [] else [(name, .object members)]

mutual

/-- The document of a block. -/
def toJson : Block → Json
  | ⟨id, kind, position, fields, values, statements⟩ =>
    .object <|
      [("id", .string id), ("type", .string kind)] ++
      (match position with
        | some p => [("position", p.toJson)]
        | none => []) ++
      unlessEmpty "fields" (fields.map fun field => (field.1, field.2.toJson)) ++
      unlessEmpty "values" (valuesToJson values) ++
      unlessEmpty "statements" (statementsToJson statements)

/-- The members of the value slots. -/
def valuesToJson : List (String × Block) → List (String × Json)
  | [] => []
  | (name, b) :: rest => (name, b.toJson) :: valuesToJson rest

/-- The members of the statement inputs. -/
def statementsToJson : List (String × List Block) → List (String × Json)
  | [] => []
  | (name, bs) :: rest => (name, .array (sequenceToJson bs)) :: statementsToJson rest

/-- The items of a sequence. -/
def sequenceToJson : List Block → List Json
  | [] => []
  | b :: rest => b.toJson :: sequenceToJson rest

end

/-- Reads a map with a reader for its values; it takes one level of the room, and the reader
gets what is left. The last of several members with one name counts. -/
def readMap? {α : Type} (room : Nat) (read : Nat → Json → Option α) :
    Option Json → Option (List (String × α))
  | none => some []
  | some (.object members) =>
    match room with
    | 0 => none
    | room + 1 =>
      (members.mapM fun member => (read room member.2).map fun value => (member.1, value)).map
        Entries.ofList
  | some _ => none

/-- Reads a list with a reader for its items; it takes one level of the room. -/
def readList? {α : Type} (room : Nat) (read : Nat → Json → Option α) :
    Json → Option (List α)
  | .array items =>
    match room with
    | 0 => none
    | room + 1 => items.mapM (read room)
  | _ => none

/-- Reads a block within the room that is left. -/
def read? : Nat → Json → Option Block
  | 0, _ => none
  | room + 1, j => do
    let [id, kind, position, fields, values, statements] ←
      j.record? ["id", "type", "position", "fields", "values", "statements"] | none
    let id ← Json.required Json.text? id
    let kind ← Json.required Json.text? kind
    let position ← Point.read? room position
    let fields ← readMap? room (fun _ => Scalar.ofJson?) fields
    -- The maps and the lists in them take a level each before the next block does.
    let values ←
      match room with
      | 0 => if values.isNone then some [] else none
      | inner + 1 => readMap? (inner + 1) (fun _ => read? inner) values
    let statements ←
      match room with
      | 0 | 1 => readMap? room (fun room => readList? room fun _ _ => none) statements
      | inner + 2 =>
        readMap? (inner + 2) (fun _ => readList? (inner + 1) fun _ => read? inner) statements
    some { id, kind, position, fields, values, statements }

/-- Reads the text of one block. -/
def ofText (text : String) : Except Failure Block :=
  match (Json.parse? text).bind (read? Json.maxDepth) with
  | some b => .ok b
  | none => .error .badDocument

end Block

namespace Program

/-- The document of a program. -/
def toJson (p : Program) : Json :=
  .object [("blocks", .array (Block.sequenceToJson p.blocks))]

/-- Reads a program. -/
def read? : Nat → Json → Option Program
  | 0, _ => none
  | room + 1, j => do
    let [blocks] ← j.record? ["blocks"] | none
    let blocks ← Json.withDefault (Block.readList? room Block.read?) [] blocks
    some ⟨blocks⟩

/-- The text of a program. -/
def toText (p : Program) : String :=
  p.toJson.compact

/-- Reads the text of a program. -/
def ofText (text : String) : Except Failure Program :=
  match (Json.parse? text).bind (read? Json.maxDepth) with
  | some p => .ok p
  | none => .error .badProgram

end Program

end Blockwork
