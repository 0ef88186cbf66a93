import Blockwork.Block.Basic
import Blockwork.Catalogue
import Mathlib.Data.List.Forall2

/-!
# What a block type declares of a block

A block can hold more than its type declares, and it has an identity and a place on the canvas.
`Block.declaredPart` keeps of every block of a tree only the fields, slots and inputs that are
declared under their names by its type; `Block.anonymous` takes all identities and places away.
Both rebuild the tree from its leaves (`Block.rebuild`), and leave the kinds and the declared
fields, slots and inputs what they were.
-/

namespace Blockwork

namespace Block

/-! ### Rebuilding trees -/

mutual

/-- The tree rebuilt from its leaves, with `f` applied to each block after those inside it. -/
def rebuild (f : Block → Block) : Block → Block
  | ⟨id, kind, position, fields, values, statements⟩ =>
    f ⟨id, kind, position, fields, rebuildValues f values, rebuildStatements f statements⟩

/-- `rebuild` for the blocks in value slots. -/
def rebuildValues (f : Block → Block) : List (String × Block) → List (String × Block)
  | [] => []
  | (name, b) :: rest => (name, b.rebuild f) :: rebuildValues f rest

/-- `rebuild` for the blocks in statement inputs. -/
def rebuildStatements (f : Block → Block) :
    List (String × List Block) → List (String × List Block)
  | [] => []
  | (name, bs) :: rest => (name, rebuildSequence f bs) :: rebuildStatements f rest

/-- `rebuild` for the blocks of one sequence. -/
def rebuildSequence (f : Block → Block) : List Block → List Block
  | [] => []
  | b :: rest => b.rebuild f :: rebuildSequence f rest

end

variable {f : Block → Block}

theorem rebuildValues_eq (values : List (String × Block)) :
    rebuildValues f values = values.map fun entry => (entry.1, entry.2.rebuild f) := by
  induction values with
  | nil => rw [rebuildValues, List.map_nil]
  | cons entry rest ih => rw [rebuildValues, ih, List.map_cons]

theorem rebuildSequence_eq (bs : List Block) : rebuildSequence f bs = bs.map (rebuild f) := by
  induction bs with
  | nil => rw [rebuildSequence, List.map_nil]
  | cons b rest ih => rw [rebuildSequence, ih, List.map_cons]

theorem rebuildStatements_eq (statements : List (String × List Block)) :
    rebuildStatements f statements =
      statements.map fun entry => (entry.1, entry.2.map (rebuild f)) := by
  induction statements with
  | nil => rw [rebuildStatements, List.map_nil]
  | cons entry rest ih => rw [rebuildStatements, ih, rebuildSequence_eq, List.map_cons]

theorem rebuild_eq (f : Block → Block) (b : Block) :
    b.rebuild f = f
      { b with
        values := b.values.map fun entry => (entry.1, entry.2.rebuild f)
        statements := b.statements.map fun entry => (entry.1, entry.2.map (rebuild f)) } := by
  cases b
  rw [rebuild, rebuildValues_eq, rebuildStatements_eq]

/-! ### Identities and places -/

/-- The tree without the identities and the places of its blocks. -/
def anonymous : Block → Block :=
  rebuild fun b => { b with id := "", position := none }

variable {b b' : Block} {name input : String}

theorem kind_anonymous : b.anonymous.kind = b.kind := by
  unfold anonymous
  rw [rebuild_eq]

theorem scalar?_anonymous : b.anonymous.scalar? name = b.scalar? name := by
  unfold anonymous
  rw [rebuild_eq]
  rfl

theorem plugged?_anonymous :
    b.anonymous.plugged? input = (b.plugged? input).map anonymous := by
  unfold anonymous
  rw [rebuild_eq]
  exact Entries.get?_map _ _ _

theorem sequenceIn_anonymous :
    b.anonymous.sequenceIn input = (b.sequenceIn input).map anonymous := by
  unfold anonymous sequenceIn
  rw [rebuild_eq]
  simp only [Entries.get?_map]
  cases Entries.get? input b.statements <;> rfl

end Block

/-! ### Declared entries -/

/-- Whether the type of this name is listed and declares something under a name. -/
def Catalogue.declares (c : Catalogue) (kind : String) (has : BlockType → String → Bool)
    (name : String) : Bool :=
  (c.get? kind).any fun listing => has listing.blockType name

theorem Catalogue.declares_of_listed {c : Catalogue} {kind name : String} {listing : Listing}
    {has : BlockType → String → Bool} (listed : c.get? kind = some listing)
    (declared : has listing.blockType name = true) : c.declares kind has name = true := by
  unfold declares
  rw [listed]
  exact declared

namespace Block

/-- The block with only those fields, slots and inputs that its type declares as such. -/
def keepDeclared (c : Catalogue) (b : Block) : Block :=
  { b with
    fields := b.fields.filter fun entry => c.declares b.kind BlockType.hasField entry.1
    values := b.values.filter fun entry => c.declares b.kind BlockType.hasValue entry.1
    statements := b.statements.filter fun entry =>
      c.declares b.kind BlockType.hasStatement entry.1 }

/-- The tree with only those fields, slots and inputs that the types of its blocks declare. -/
def declaredPart (c : Catalogue) : Block → Block :=
  rebuild (keepDeclared c)

variable {c : Catalogue} {b b' : Block} {name input : String}

theorem kind_declaredPart : (b.declaredPart c).kind = b.kind := by
  unfold declaredPart
  rw [rebuild_eq]
  rfl

theorem scalar?_declaredPart (declared : c.declares b.kind BlockType.hasField name = true) :
    (b.declaredPart c).scalar? name = b.scalar? name := by
  unfold declaredPart
  rw [rebuild_eq]
  exact (Entries.get?_filter _ _ _).trans (if_pos declared)

theorem plugged?_declaredPart (declared : c.declares b.kind BlockType.hasValue input = true) :
    (b.declaredPart c).plugged? input = (b.plugged? input).map (declaredPart c) := by
  unfold declaredPart
  rw [rebuild_eq]
  exact (Entries.get?_filter _ _ _).trans ((if_pos declared).trans (Entries.get?_map _ _ _))

theorem sequenceIn_declaredPart
    (declared : c.declares b.kind BlockType.hasStatement input = true) :
    (b.declaredPart c).sequenceIn input = (b.sequenceIn input).map (declaredPart c) := by
  unfold declaredPart sequenceIn keepDeclared
  rw [rebuild_eq]
  simp only [Entries.get?_filter, declared, if_true, Entries.get?_map]
  cases Entries.get? input b.statements <;> rfl

/-! ### Blocks that agree in what is declared -/

/-- The second block is what is declared of the first one, under any identities and at any
places. -/
def HasDeclaredPart (c : Catalogue) (b b' : Block) : Prop :=
  b'.anonymous = (b.declaredPart c).anonymous

namespace HasDeclaredPart

variable (same : HasDeclaredPart c b b')

include same

theorem kind : b'.kind = b.kind := by
  rw [← kind_anonymous, same, kind_anonymous, kind_declaredPart]

theorem scalar? (declared : c.declares b.kind BlockType.hasField name = true) :
    b.scalar? name = b'.scalar? name := by
  rw [← scalar?_declaredPart declared, ← scalar?_anonymous, ← same, scalar?_anonymous]

theorem plugged? (declared : c.declares b.kind BlockType.hasValue input = true) :
    Option.Rel (HasDeclaredPart c) (b.plugged? input) (b'.plugged? input) := by
  have slots : (b'.plugged? input).map anonymous =
      ((b.plugged? input).map (declaredPart c)).map anonymous := by
    rw [← plugged?_declaredPart declared, ← plugged?_anonymous, ← plugged?_anonymous, same]
  generalize b.plugged? input = plugged, b'.plugged? input = plugged' at slots
  cases plugged with
  | none =>
    rw [Option.map_eq_none_iff.mp slots]
    exact .none
  | some child =>
    obtain ⟨child', rfl, here⟩ := Option.map_eq_some_iff.mp slots
    exact .some here

theorem sequenceIn (declared : c.declares b.kind BlockType.hasStatement input = true) :
    List.Forall₂ (HasDeclaredPart c) (b.sequenceIn input) (b'.sequenceIn input) := by
  have sequences : (b'.sequenceIn input).map anonymous =
      ((b.sequenceIn input).map (declaredPart c)).map anonymous := by
    rw [← sequenceIn_declaredPart declared, ← sequenceIn_anonymous, ← sequenceIn_anonymous, same]
  rw [List.map_map, ← List.forall₂_eq_eq_eq, List.forall₂_map_left_iff,
    List.forall₂_map_right_iff] at sequences
  exact sequences.flip

end HasDeclaredPart

end Block

end Blockwork
