import Blockwork.Proofs.Block.Induction
import Blockwork.Proofs.Block.Verbatim

/-!
# Texts inside string literals

Five fields of built-in blocks hold texts that the generated code says as strings.
`Block.withoutTexts` empties them throughout a tree, so that two trees with the same result
differ in these texts only. Such trees have the same shape (`plugged?_withoutTexts`,
`sequenceIn_withoutTexts`), and their blocks agree in every other field
(`scalar?_eq_of_withoutTexts`).
-/

namespace Blockwork

/-- A field's value with an empty text in the place of its text, if it is one. -/
def Scalar.withoutText : Scalar → Scalar
  | .text _ => .text ""
  | other => other

namespace Block

/-- The field of a block type whose text the generated code says as a string. -/
def textField? (kind : String) : Option String :=
  if kind = "text" then some "TEXT"
  else if kind = "route" ∨ kind = "handler" then some "path"
  else if kind = "field" then some "key"
  else if kind = "server" then some "hostname"
  else none

/-- The fields of a block with an empty text in the field that the code says as a string. -/
def fieldsWithoutText (kind : String) (fields : List (String × Scalar)) :
    List (String × Scalar) :=
  fields.map fun (name, value) =>
    (name, if textField? kind = some name then value.withoutText else value)

mutual

/-- The block without the texts that the code says as strings, in it and inside it. -/
def withoutTexts : Block → Block
  | ⟨id, kind, position, fields, values, statements⟩ =>
    ⟨id, kind, position, fieldsWithoutText kind fields, valuesWithoutTexts values,
      statementsWithoutTexts statements⟩

/-- `withoutTexts` for the blocks in value slots. -/
def valuesWithoutTexts : List (String × Block) → List (String × Block)
  | [] => []
  | (name, b) :: rest => (name, b.withoutTexts) :: valuesWithoutTexts rest

/-- `withoutTexts` for the blocks in statement inputs. -/
def statementsWithoutTexts : List (String × List Block) → List (String × List Block)
  | [] => []
  | (name, bs) :: rest => (name, sequenceWithoutTexts bs) :: statementsWithoutTexts rest

/-- `withoutTexts` for the blocks of one sequence. -/
def sequenceWithoutTexts : List Block → List Block
  | [] => []
  | b :: rest => b.withoutTexts :: sequenceWithoutTexts rest

end

variable {b b' : Block} {name : String}

@[simp] theorem id_withoutTexts : b.withoutTexts.id = b.id := by
  cases b
  rw [withoutTexts]

@[simp] theorem kind_withoutTexts : b.withoutTexts.kind = b.kind := by
  cases b
  rw [withoutTexts]

theorem scalar?_withoutTexts : b.withoutTexts.scalar? name =
    (b.scalar? name).map fun value =>
      if textField? b.kind = some name then value.withoutText else value := by
  obtain ⟨id, kind, position, fields, values, statements⟩ := b
  rw [withoutTexts]
  show Entries.get? name (fieldsWithoutText kind fields) = (Entries.get? name fields).map _
  induction fields with
  | nil => rfl
  | cons entry rest ih =>
    obtain ⟨key, value⟩ := entry
    unfold fieldsWithoutText at ih ⊢
    rw [List.map_cons, Entries.get?, Entries.get?]
    split
    · rename_i same
      rw [same, Option.map_some]
    · exact ih

theorem plugged?_withoutTexts (input : String) :
    b.withoutTexts.plugged? input = (b.plugged? input).map withoutTexts := by
  obtain ⟨id, kind, position, fields, values, statements⟩ := b
  rw [withoutTexts]
  show Entries.get? input (valuesWithoutTexts values) = (Entries.get? input values).map _
  induction values with
  | nil =>
    rw [valuesWithoutTexts]
    rfl
  | cons entry rest ih =>
    obtain ⟨key, child⟩ := entry
    rw [valuesWithoutTexts, Entries.get?, Entries.get?]
    split
    · rfl
    · exact ih

theorem sequenceWithoutTexts_eq_map (bs : List Block) :
    sequenceWithoutTexts bs = bs.map withoutTexts := by
  induction bs with
  | nil => rw [sequenceWithoutTexts, List.map_nil]
  | cons b rest ih => rw [sequenceWithoutTexts, ih, List.map_cons]

theorem sequenceIn_withoutTexts (input : String) :
    b.withoutTexts.sequenceIn input = (b.sequenceIn input).map withoutTexts := by
  obtain ⟨id, kind, position, fields, values, statements⟩ := b
  rw [withoutTexts, ← sequenceWithoutTexts_eq_map]
  show (Entries.get? input (statementsWithoutTexts statements)).getD [] =
    sequenceWithoutTexts ((Entries.get? input statements).getD [])
  induction statements with
  | nil =>
    rw [statementsWithoutTexts, Entries.get?_nil]
    show [] = sequenceWithoutTexts []
    rw [sequenceWithoutTexts]
  | cons entry rest ih =>
    obtain ⟨key, bs⟩ := entry
    rw [statementsWithoutTexts, Entries.get?, Entries.get?]
    split
    · rfl
    · exact ih

/-! ### Blocks that differ in such texts only -/

theorem id_eq_of_withoutTexts (same : b.withoutTexts = b'.withoutTexts) : b.id = b'.id := by
  rw [← id_withoutTexts, same, id_withoutTexts]

theorem kind_eq_of_withoutTexts (same : b.withoutTexts = b'.withoutTexts) :
    b.kind = b'.kind := by
  rw [← kind_withoutTexts, same, kind_withoutTexts]

/-- The blocks agree in every field but the one for such a text. -/
theorem scalar?_eq_of_withoutTexts (same : b.withoutTexts = b'.withoutTexts)
    (other : textField? b.kind ≠ some name) : b.scalar? name = b'.scalar? name := by
  have other' : textField? b'.kind ≠ some name := kind_eq_of_withoutTexts same ▸ other
  have fields : b.withoutTexts.scalar? name = b'.withoutTexts.scalar? name := by rw [same]
  rw [scalar?_withoutTexts, scalar?_withoutTexts] at fields
  simpa only [if_neg other, if_neg other', Option.map_id'] using fields

theorem textD_eq_of_withoutTexts (same : b.withoutTexts = b'.withoutTexts)
    (other : textField? b.kind ≠ some name) (default : String) :
    b.textD name default = b'.textD name default := by
  unfold textD
  rw [scalar?_eq_of_withoutTexts same other]

end Block

end Blockwork
