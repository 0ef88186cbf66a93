import Blockwork.Proofs.Block.Induction
import Blockwork.Proofs.Catalogue.Loaded

/-!
# The generated part of a tree

Generators look into the inputs that their block's type declares, and into no others. The blocks
that can be reached through declared inputs are the ones that are generated with a block.
-/

namespace Blockwork

/-! ### The blocks in declared inputs -/

/-- The blocks of a block that stand in an input. -/
def Input.blocksIn (b : Block) (input : Input) : List Block :=
  match input.kind with
  | .value _ => (b.plugged? input.name).toList
  | .statement => b.sequenceIn input.name
  | .field _ => []

/-- The blocks in the inputs that the type of a block declares. -/
def BlockType.children (t : BlockType) (b : Block) : List Block :=
  t.inputs.flatMap (Input.blocksIn b)

theorem BlockType.mem_children {t : BlockType} {b child : Block} (mem : child ∈ t.children b) :
    (∃ input, t.hasValue input = true ∧ b.plugged? input = some child) ∨
      ∃ input, t.hasStatement input = true ∧ child ∈ b.sequenceIn input := by
  obtain ⟨input, declared, inside⟩ := List.mem_flatMap.mp mem
  obtain ⟨name, label, kind⟩ := input
  cases kind with
  | value takesText =>
    refine .inl ⟨name, List.any_eq_true.mpr ⟨_, declared, ?_⟩, Option.mem_toList.mp inside⟩
    simp
  | statement =>
    refine .inr ⟨name, List.any_eq_true.mpr ⟨_, declared, ?_⟩, inside⟩
    simp
  | field widget => exact absurd inside List.not_mem_nil

theorem BlockType.mem_children_of_value {t : BlockType} {b child : Block} {input : String}
    (declared : t.hasValue input = true) (found : b.plugged? input = some child) :
    child ∈ t.children b := by
  obtain ⟨⟨name, label, kind⟩, mem, same⟩ := List.any_eq_true.mp declared
  cases kind with
  | value takesText =>
    obtain rfl : name = input := by simpa using same
    exact List.mem_flatMap.mpr ⟨_, mem, Option.mem_toList.mpr found⟩
  | statement => simp at same
  | field widget => simp at same

theorem BlockType.mem_children_of_statement {t : BlockType} {b child : Block} {input : String}
    (declared : t.hasStatement input = true) (inside : child ∈ b.sequenceIn input) :
    child ∈ t.children b := by
  obtain ⟨⟨name, label, kind⟩, mem, same⟩ := List.any_eq_true.mp declared
  cases kind with
  | value takesText => simp at same
  | statement =>
    obtain rfl : name = input := by simpa using same
    exact List.mem_flatMap.mpr ⟨_, mem, inside⟩
  | field widget => simp at same

theorem PackageItem.blocksIn_slots (item : PackageItem) (b : Block) :
    item.slots.flatMap (Input.blocksIn b) =
      item.parameters.flatMap fun p => (b.plugged? p.name).toList :=
  List.flatMap_map _ _ _

theorem CallItem.children_eq (item : CallItem) (b : Block) :
    item.blockType.children b =
      item.parameters.flatMap fun p => (b.plugged? p.name).toList :=
  item.blocksIn_slots b

theorem LiteralItem.children_eq (item : LiteralItem) (b : Block) :
    item.blockType.children b =
      item.parameters.flatMap fun p => (b.plugged? p.name).toList := by
  have whole : item.blockType.children b =
      item.slots.flatMap (Input.blocksIn b) ++ [] := List.flatMap_append
  rw [whole, List.append_nil, item.blocksIn_slots b]

/-! ### Reachable blocks -/

namespace Catalogue

/-- The second block is the first one or stands in one of its declared inputs, at any depth. -/
inductive Reaches (c : Catalogue) : Block → Block → Prop where
  | self (b : Block) : Reaches c b b
  | value {b child inner : Block} {listing : Listing} {input : String}
      (listed : c.get? b.kind = some listing)
      (declared : listing.blockType.hasValue input = true)
      (found : b.plugged? input = some child) (inside : Reaches c child inner) :
      Reaches c b inner
  | statement {b child inner : Block} {listing : Listing} {input : String}
      (listed : c.get? b.kind = some listing)
      (declared : listing.blockType.hasStatement input = true)
      (mem : child ∈ b.sequenceIn input) (inside : Reaches c child inner) :
      Reaches c b inner

theorem Reaches.of_child {c : Catalogue} {b child inner : Block} {listing : Listing}
    (listed : c.get? b.kind = some listing) (mem : child ∈ listing.blockType.children b)
    (inside : c.Reaches child inner) : c.Reaches b inner := by
  rcases BlockType.mem_children mem with ⟨input, declared, found⟩ | ⟨input, declared, there⟩
  · exact .value listed declared found inside
  · exact .statement listed declared there inside

/-- What can be reached through declared inputs is contained in the block. -/
theorem Reaches.contains {c : Catalogue} {b inner : Block} (reaches : c.Reaches b inner) :
    b.Contains inner := by
  induction reaches with
  | self b => exact .self b
  | value _ _ found _ ih => exact .value found ih
  | statement _ _ mem _ ih => exact .statement mem ih

end Catalogue

end Blockwork
