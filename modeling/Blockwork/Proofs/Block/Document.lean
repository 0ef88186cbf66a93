import Blockwork.Block.Codec
import Blockwork.Proofs.Json.Record

/-!
# The documents of blocks

A block is written as the record of its members (`Block.toJson_eq`), without those that hold
nothing. Every numeral in a document is proper (`Program.proper_toJson`), so that its text is
parsed again.
-/

namespace Blockwork

/-! ### Scalars and positions -/

theorem Scalar.depth_toJson (s : Scalar) : s.toJson.depth = 0 := by
  cases s with
  | flag value => simp only [toJson, Json.depth]
  | text value => simp only [toJson, Json.depth]
  | number x => exact Json.depth_real x

theorem Scalar.proper_toJson (s : Scalar) : s.toJson.Proper := by
  cases s with
  | flag value => simp only [toJson, Json.Proper]
  | text value => simp only [toJson, Json.Proper]
  | number x => exact Json.proper_real x

theorem Point.depth_toJson (p : Point) : p.toJson.depth = 1 := by
  simp only [toJson, Json.depth, Json.depthOfMembers, Json.depth_real, Nat.max_self]

theorem Point.proper_toJson (p : Point) : p.toJson.Proper := by
  rw [toJson, Json.Proper]
  exact ⟨Json.proper_real p.x, Json.proper_real p.y, trivial⟩

/-! ### Records -/

namespace Block

/-- The members of a block's record, those included that are left out. -/
def record (b : Block) : List (String × Option Json) :=
  [("id", some (.string b.id)), ("type", some (.string b.kind)),
    ("position", b.position.map Point.toJson),
    ("fields", Json.ofMap? (b.fields.map fun field => (field.1, field.2.toJson))),
    ("values", Json.ofMap? (valuesToJson b.values)),
    ("statements", Json.ofMap? (statementsToJson b.statements))]

theorem unlessEmpty_append (name : String) (members : List (String × Json))
    (rest : List (String × Option Json)) :
    unlessEmpty name members ++ Json.present rest =
      Json.present ((name, Json.ofMap? members) :: rest) := by
  cases members <;> rfl

theorem toJson_eq (b : Block) : b.toJson = .object (Json.present b.record) := by
  obtain ⟨id, kind, position, fields, values, statements⟩ := b
  have last : unlessEmpty "statements" (statementsToJson statements) =
      unlessEmpty "statements" (statementsToJson statements) ++ Json.present [] :=
    (List.append_nil _).symm
  cases position with
  | none
  | some p =>
    rw [toJson, last]
    simp only [List.append_assoc]
    rw [unlessEmpty_append, unlessEmpty_append, unlessEmpty_append]
    rfl

theorem record?_record (b : Block) :
    Json.record? ["id", "type", "position", "fields", "values", "statements"]
      (.object (Json.present b.record)) = some (b.record.map (·.2)) :=
  Json.record?_present b.record rfl (by decide)

/-! ### Proper numerals -/

theorem proper_record {b : Block} (values : Json.ProperMembers (valuesToJson b.values))
    (statements : Json.ProperMembers (statementsToJson b.statements)) : b.toJson.Proper := by
  have fields : Json.ProperMembers (b.fields.map fun field => (field.1, field.2.toJson)) := by
    rw [Json.properMembers_iff, List.forall_mem_map]
    exact fun field _ => field.2.proper_toJson
  rw [toJson_eq, Json.Proper, Json.properMembers_iff]
  rintro ⟨name, j⟩ mem
  have there := Json.mem_present.mp mem
  simp only [record, List.mem_cons, Prod.mk.injEq, List.not_mem_nil, or_false] at there
  rcases there with ⟨-, id⟩ | ⟨-, kind⟩ | ⟨-, placed⟩ | ⟨-, filled⟩ | ⟨-, plugged⟩ | ⟨-, attached⟩
  · obtain rfl := Option.some.inj id
    simp only [Json.Proper]
  · obtain rfl := Option.some.inj kind
    simp only [Json.Proper]
  · obtain ⟨p, -, rfl⟩ := Option.map_eq_some_iff.mp placed.symm
    exact p.proper_toJson
  · exact Json.proper_of_ofMap? filled.symm fields
  · exact Json.proper_of_ofMap? plugged.symm values
  · exact Json.proper_of_ofMap? attached.symm statements

mutual

/-- The numerals in the document of a block are proper. -/
theorem proper_toJson (b : Block) : b.toJson.Proper := by
  obtain ⟨id, kind, position, fields, values, statements⟩ := b
  exact proper_record (proper_valuesToJson values) (proper_statementsToJson statements)

theorem proper_valuesToJson (values : List (String × Block)) :
    Json.ProperMembers (valuesToJson values) := by
  cases values with
  | nil =>
    rw [valuesToJson]
    trivial
  | cons entry rest =>
    obtain ⟨name, b⟩ := entry
    rw [valuesToJson]
    exact ⟨proper_toJson b, proper_valuesToJson rest⟩

theorem proper_statementsToJson (statements : List (String × List Block)) :
    Json.ProperMembers (statementsToJson statements) := by
  cases statements with
  | nil =>
    rw [statementsToJson]
    trivial
  | cons entry rest =>
    obtain ⟨name, bs⟩ := entry
    rw [statementsToJson]
    exact ⟨proper_sequenceToJson bs, proper_statementsToJson rest⟩

theorem proper_sequenceToJson (bs : List Block) : Json.ProperItems (sequenceToJson bs) := by
  cases bs with
  | nil =>
    rw [sequenceToJson]
    trivial
  | cons b rest =>
    rw [sequenceToJson]
    exact ⟨proper_toJson b, proper_sequenceToJson rest⟩

end

end Block

namespace Program

theorem proper_toJson (p : Program) : p.toJson.Proper := by
  have blocks : (Json.array (Block.sequenceToJson p.blocks)).Proper := by
    rw [Json.Proper]
    exact Block.proper_sequenceToJson p.blocks
  rw [toJson, Json.Proper]
  exact ⟨blocks, trivial⟩

end Program

end Blockwork
