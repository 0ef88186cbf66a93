import Blockwork.Proofs.Catalogue.Loaded

/-!
# Names of inputs

A block finds what is in its inputs by their names. The names of a package item's parameters are
checked against each other before its block type is made of them; the checkbox that a literal gets
besides its slots is not among them. So the inputs of a listed type have distinct names, all kinds
taken together, but for literals of structs with a field that is called like the checkbox
(`Catalogue.Loaded.nodup_inputNames`).
-/

namespace Blockwork

/-- The names of the inputs of a block type, slots, statement inputs and fields together. -/
def BlockType.inputNames (t : BlockType) : List String :=
  t.inputs.map (·.name)

/-- The second input is the checkbox of a literal's address, and the first a slot of its name. -/
structure Input.Collides (first second : Input) : Prop where
  slot : ∃ takesText, first.kind = .value takesText
  name : first.name = LiteralItem.addressField
  checkbox : second = .field LiteralItem.addressField "Pointer" (.checkbox true)

/-- The names of no two inputs are the same, collisions with the checkbox apart. -/
def BlockType.KeepsNamesApart (t : BlockType) : Prop :=
  t.inputs.Pairwise fun first second => first.name = second.name → first.Collides second

theorem BlockType.keepsNamesApart_of_nodup {t : BlockType} (distinct : t.inputNames.Nodup) :
    t.KeepsNamesApart :=
  (List.pairwise_map.mp distinct).imp fun apart same => absurd same apart

theorem Builtin.inputNames_nodup (k : Builtin) : k.blockType.inputNames.Nodup := by
  cases k <;> decide

theorem PackageItem.names_slots (item : PackageItem) :
    item.slots.map (·.name) = item.parameters.map (·.name) := by
  unfold slots
  rw [List.map_map]
  rfl

theorem CallItem.inputNames_blockType (item : CallItem) :
    item.blockType.inputNames = item.parameters.map (·.name) :=
  item.names_slots

namespace LiteralItem

variable {item : LiteralItem}

theorem inputNames_blockType (item : LiteralItem) :
    item.blockType.inputNames = item.parameters.map (·.name) ++ [addressField] := by
  rw [← item.names_slots]
  exact List.map_append

theorem nodup_inputNames_iff (wellNamed : item.WellNamed) :
    item.blockType.inputNames.Nodup ↔ addressField ∉ item.parameters.map (·.name) := by
  rw [inputNames_blockType, List.nodup_append]
  constructor
  · rintro ⟨-, -, apart⟩ mem
    exact apart _ mem _ List.mem_cons_self rfl
  · intro absent
    refine ⟨wellNamed.distinct, List.pairwise_singleton _ _, ?_⟩
    rintro name mem _ last rfl
    exact absent (List.mem_singleton.mp last ▸ mem)

/-- The slots have distinct names, so only the checkbox can be called like one of them. -/
theorem keepsNamesApart (wellNamed : item.WellNamed) : item.blockType.KeepsNamesApart := by
  have slots : item.slots.Pairwise fun first second => first.name ≠ second.name := by
    rw [← List.pairwise_map, item.names_slots]
    exact wellNamed.distinct
  refine List.pairwise_append.mpr ⟨?_, List.pairwise_singleton _ _, ?_⟩
  · exact slots.imp fun apart same => absurd same apart
  · intro slot mem checkbox last same
    obtain rfl := List.mem_singleton.mp last
    obtain ⟨p, -, rfl⟩ := List.mem_map.mp mem
    exact ⟨⟨p.takesText, rfl⟩, same, rfl⟩

end LiteralItem

namespace Catalogue

variable {c : Catalogue} {id : String} {listing : Listing}

/-- **The inputs of a type have distinct names**, in every catalogue into which packages have been
taken, unless the type makes literals of a struct with a field that is called like the checkbox for
the address. Then the slot of that field and the checkbox have the same name, and no other two
inputs do. -/
theorem Loaded.nodup_inputNames (loaded : c.Loaded) (found : c.get? id = some listing) :
    (listing.blockType.inputNames.Nodup ↔
        ∀ item, listing.generator = .literal item →
          LiteralItem.addressField ∉ item.parameters.map (·.name)) ∧
      listing.blockType.KeepsNamesApart := by
  have inOrder := (loaded.listed found).2
  obtain ⟨blockType, generator⟩ := listing
  cases generator with
  | builtin k =>
    obtain rfl : blockType = k.blockType := inOrder
    exact ⟨iff_of_true k.inputNames_nodup nofun,
      BlockType.keepsNamesApart_of_nodup k.inputNames_nodup⟩
  | call item =>
    obtain ⟨rfl, faultless⟩ := inOrder
    have distinct : item.blockType.inputNames.Nodup := by
      rw [item.inputNames_blockType]
      exact (PackageItem.fault?_eq_none_iff.mp faultless).distinct
    exact ⟨iff_of_true distinct nofun, BlockType.keepsNamesApart_of_nodup distinct⟩
  | literal item =>
    obtain ⟨rfl, faultless⟩ := inOrder
    have wellNamed := PackageItem.fault?_eq_none_iff.mp faultless
    refine ⟨(LiteralItem.nodup_inputNames_iff wellNamed).trans ?_,
      LiteralItem.keepsNamesApart wellNamed⟩
    constructor
    · rintro absent item same
      obtain rfl := Generator.literal.inj same
      exact absent
    · exact fun absent => absent item rfl
  | recipe r => exact inOrder.elim

/-- Two structs of a package, one of them with a field called `pointer`. -/
theorem Loaded.nodup_inputNames_of_structs :
    let element : LiteralItem :=
      { package := "list", name := "Element", parameters := [⟨"Value", "any"⟩], doc := "",
        help := "container/list", hue := 250 }
    let node : LiteralItem :=
      { element with name := "Node", parameters := [⟨"pointer", "*Node"⟩, ⟨"Value", "any"⟩] }
    let c := (ofBuiltins.takeStructs "container/list" 0
      [{ package := "list", name := "Element", fields := [⟨"Value", "any"⟩] },
        { package := "list", name := "Node", fields := [⟨"pointer", "*Node"⟩, ⟨"Value", "any"⟩] }]
      {}).1
    c.Loaded ∧ c.get? "list_Element" = some ⟨element.blockType, .literal element⟩ ∧
      c.get? "list_Node" = some ⟨node.blockType, .literal node⟩ ∧
      element.blockType.inputNames.Nodup ∧ ¬ node.blockType.inputNames.Nodup := by
  intro element node c
  have loaded : c.Loaded := .structs .builtins "container/list" 0 _ {}
  have elements : c.get? "list_Element" = some ⟨element.blockType, .literal element⟩ := by
    decide +kernel
  have nodes : c.get? "list_Node" = some ⟨node.blockType, .literal node⟩ := by
    decide +kernel
  refine ⟨loaded, elements, nodes, (loaded.nodup_inputNames elements).1.mpr ?_, fun distinct => ?_⟩
  · rintro item same
    obtain rfl := Generator.literal.inj same
    decide
  · exact (loaded.nodup_inputNames nodes).1.mp distinct node rfl (by decide)

/-- A struct with a field called `pointer` is taken in, and its block type has two inputs of that
name. -/
theorem name_given_twice :
    let c := (ofBuiltins.takeStructs "example.com/cell" 0
      [{ package := "cell", name := "Cell", fields := [⟨"pointer", "int"⟩] }] {}).1
    c.Loaded ∧ (c.get? "cell_Cell").map (·.blockType.inputNames) = some ["pointer", "pointer"] :=
  ⟨.structs .builtins "example.com/cell" 0 _ {}, by decide +kernel⟩

end Catalogue

end Blockwork
