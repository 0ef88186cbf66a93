import Blockwork.Block.Program
import Blockwork.Catalogue

/-!
# Pruned programs

`Block.prune` takes every block of an unlisted type out of a tree, with all that is inside it:
out of value slots, which it leaves empty, and out of the sequences in statement inputs.
`Program.prune` does so for the roots as well.
-/

namespace Blockwork

/-- Whether a block type is listed. -/
def Catalogue.lists (c : Catalogue) (kind : String) : Bool :=
  (c.get? kind).isSome

theorem Catalogue.lists_eq_false_iff {c : Catalogue} {kind : String} :
    c.lists kind = false ↔ c.get? kind = none := by
  unfold lists
  rw [Option.isSome_eq_false_iff, Option.isNone_iff_eq_none]

namespace Block

mutual

/-- The block without blocks of unlisted types inside it. -/
def prune (c : Catalogue) : Block → Block
  | ⟨id, kind, position, fields, values, statements⟩ =>
    ⟨id, kind, position, fields, pruneValues c values, pruneStatements c statements⟩

/-- The value slots without blocks of unlisted types. -/
def pruneValues (c : Catalogue) : List (String × Block) → List (String × Block)
  | [] => []
  | (name, b) :: rest =>
    if c.lists b.kind then (name, b.prune c) :: pruneValues c rest
    -- The first entry of a name is the slot, so that with it the slot is empty.
    else Entries.erase name (pruneValues c rest)

/-- The statement inputs without blocks of unlisted types. -/
def pruneStatements (c : Catalogue) : List (String × List Block) → List (String × List Block)
  | [] => []
  | (name, bs) :: rest => (name, pruneSequence c bs) :: pruneStatements c rest

/-- A sequence without blocks of unlisted types. -/
def pruneSequence (c : Catalogue) : List Block → List Block
  | [] => []
  | b :: rest => if c.lists b.kind then b.prune c :: pruneSequence c rest else pruneSequence c rest

end

variable {c : Catalogue} {b : Block}

@[simp] theorem id_prune : (b.prune c).id = b.id := by
  cases b
  rw [prune]

@[simp] theorem kind_prune : (b.prune c).kind = b.kind := by
  cases b
  rw [prune]

@[simp] theorem position_prune : (b.prune c).position = b.position := by
  cases b
  rw [prune]

@[simp] theorem fields_prune : (b.prune c).fields = b.fields := by
  cases b
  rw [prune]

theorem pruneSequence_eq (bs : List Block) :
    pruneSequence c bs = (bs.filter fun b => c.lists b.kind).map (prune c) := by
  induction bs with
  | nil => rw [pruneSequence, List.filter_nil, List.map_nil]
  | cons b rest ih =>
    rw [pruneSequence, ih, List.filter_cons]
    split
    · rw [List.map_cons]
    · rfl

/-- A slot keeps its block when the block's type is listed. -/
theorem plugged?_prune (input : String) :
    (b.prune c).plugged? input =
      (b.plugged? input).bind fun child =>
        if c.lists child.kind then some (child.prune c) else none := by
  obtain ⟨id, kind, position, fields, values, statements⟩ := b
  rw [prune]
  show Entries.get? input (pruneValues c values) = (Entries.get? input values).bind _
  induction values with
  | nil =>
    rw [pruneValues]
    rfl
  | cons entry rest ih =>
    obtain ⟨name, child⟩ := entry
    rw [pruneValues, Entries.get?]
    by_cases here : name = input
    · rw [if_pos here, Option.bind_some]
      split
      · rw [Entries.get?, if_pos here]
      · rw [Entries.get?_erase, if_pos here]
    · rw [if_neg here, ← ih]
      split
      · rw [Entries.get?, if_neg here]
      · rw [Entries.get?_erase, if_neg here]

theorem sequenceIn_prune (input : String) :
    (b.prune c).sequenceIn input =
      ((b.sequenceIn input).filter fun child => c.lists child.kind).map (prune c) := by
  obtain ⟨id, kind, position, fields, values, statements⟩ := b
  rw [prune, ← pruneSequence_eq]
  show (Entries.get? input (pruneStatements c statements)).getD [] =
    pruneSequence c ((Entries.get? input statements).getD [])
  induction statements with
  | nil =>
    rw [pruneStatements, Entries.get?_nil]
    show [] = pruneSequence c []
    rw [pruneSequence]
  | cons entry rest ih =>
    obtain ⟨name, bs⟩ := entry
    rw [pruneStatements, Entries.get?, Entries.get?]
    split
    · rfl
    · exact ih

end Block

/-- The program without blocks of unlisted types, at any depth. -/
def Program.prune (p : Program) (c : Catalogue) : Program :=
  ⟨Block.pruneSequence c p.blocks⟩

end Blockwork
