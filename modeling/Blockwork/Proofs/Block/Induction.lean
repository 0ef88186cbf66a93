import Blockwork.Block.Basic

/-!
# Induction over blocks

A block sees the blocks inside it through two accessors only, the one for value slots and the
one for statement inputs. `Block.induction` is the induction principle over these accessors:
what passes from the blocks that a block can reach to the block itself holds of every block.
`Block.Contains` relates a block to every block that can be reached in this way, and
`Block.everywhere` tests all of these.
-/

namespace Blockwork.Block

variable {b child : Block} {input : String}

theorem sizeOf_lt_of_plugged? (found : b.plugged? input = some child) :
    sizeOf child < sizeOf b := by
  have inside := List.sizeOf_lt_of_mem (Entries.mem_of_get? found)
  obtain ⟨id, kind, position, fields, values, statements⟩ := b
  simp only [mk.sizeOf_spec, Prod.mk.sizeOf_spec] at inside ⊢
  omega

theorem sizeOf_lt_of_mem_sequenceIn (mem : child ∈ b.sequenceIn input) :
    sizeOf child < sizeOf b := by
  have first := List.sizeOf_lt_of_mem mem
  unfold sequenceIn at first
  obtain ⟨id, kind, position, fields, values, statements⟩ := b
  cases found : Entries.get? input statements with
  | none => simp [sequenceIn, found] at mem
  | some bs =>
    have second := List.sizeOf_lt_of_mem (Entries.mem_of_get? found)
    simp only [found, Option.getD_some] at first
    simp only [mk.sizeOf_spec, Prod.mk.sizeOf_spec] at second ⊢
    omega

theorem exists_mem_of_mem_sequenceIn (mem : child ∈ b.sequenceIn input) :
    ∃ entry ∈ b.statements, child ∈ entry.2 := by
  unfold sequenceIn at mem
  cases found : Entries.get? input b.statements with
  | none =>
    rw [found] at mem
    exact absurd mem List.not_mem_nil
  | some bs =>
    rw [found] at mem
    exact ⟨(input, bs), Entries.mem_of_get? found, mem⟩

/-- What passes from the blocks in the inputs of a block to the block holds of every block. -/
theorem induction {P : Block → Prop}
    (step : ∀ b : Block, (∀ input child, b.plugged? input = some child → P child) →
      (∀ input, ∀ child ∈ b.sequenceIn input, P child) → P b) (b : Block) : P b := by
  refine step b ?_ ?_
  · intro input child found
    have := sizeOf_lt_of_plugged? found
    exact induction step child
  · intro input child mem
    have := sizeOf_lt_of_mem_sequenceIn mem
    exact induction step child
termination_by sizeOf b

/-- The second block is the first one or stands in one of its inputs, at any depth. -/
inductive Contains : Block → Block → Prop where
  | self (b : Block) : Contains b b
  | value {b child inner : Block} {input : String} (found : b.plugged? input = some child)
      (inside : Contains child inner) : Contains b inner
  | statement {b child inner : Block} {input : String} (mem : child ∈ b.sequenceIn input)
      (inside : Contains child inner) : Contains b inner

/-! ### Ordered blocks -/

theorem OrderedSequence.of_mem {bs : List Block} (ordered : OrderedSequence bs)
    (mem : child ∈ bs) : child.Ordered := by
  induction bs with
  | nil => exact absurd mem List.not_mem_nil
  | cons first rest ih =>
    rw [OrderedSequence] at ordered
    rcases List.mem_cons.mp mem with rfl | later
    · exact ordered.1
    · exact ih ordered.2 later

theorem OrderedStatements.of_mem {statements : List (String × List Block)}
    (ordered : OrderedStatements statements) {entry : String × List Block}
    (mem : entry ∈ statements) : OrderedSequence entry.2 := by
  induction statements with
  | nil => exact absurd mem List.not_mem_nil
  | cons first rest ih =>
    obtain ⟨name, bs⟩ := first
    rw [OrderedStatements] at ordered
    rcases List.mem_cons.mp mem with rfl | later
    · exact ordered.1
    · exact ih ordered.2 later

theorem Ordered.statements (ordered : b.Ordered) :
    Entries.Ascending b.statements ∧ OrderedStatements b.statements := by
  obtain ⟨id, kind, position, fields, values, statements⟩ := b
  rw [Ordered] at ordered
  exact ⟨ordered.2.2.1, ordered.2.2.2.2⟩

/-- The blocks in the statement inputs of an ordered block are ordered. -/
theorem Ordered.of_mem_sequenceIn (ordered : b.Ordered) (mem : child ∈ b.sequenceIn input) :
    child.Ordered := by
  obtain ⟨entry, standing, inside⟩ := exists_mem_of_mem_sequenceIn mem
  exact (ordered.statements.2.of_mem standing).of_mem inside

/-! ### Testing every block of a tree -/

mutual

/-- Whether a test passes on the block and on every block inside it. -/
def everywhere (p : Block → Bool) : Block → Bool
  | ⟨id, kind, position, fields, values, statements⟩ =>
    p ⟨id, kind, position, fields, values, statements⟩ && everywhereInValues p values &&
      everywhereInStatements p statements

/-- `everywhere` for the blocks in value slots. -/
def everywhereInValues (p : Block → Bool) : List (String × Block) → Bool
  | [] => true
  | (_, b) :: rest => b.everywhere p && everywhereInValues p rest

/-- `everywhere` for the blocks in statement inputs. -/
def everywhereInStatements (p : Block → Bool) : List (String × List Block) → Bool
  | [] => true
  | (_, bs) :: rest => everywhereInSequence p bs && everywhereInStatements p rest

/-- `everywhere` for the blocks of one sequence. -/
def everywhereInSequence (p : Block → Bool) : List Block → Bool
  | [] => true
  | b :: rest => b.everywhere p && everywhereInSequence p rest

end

variable {p : Block → Bool}

theorem everywhere_iff : b.everywhere p = true ↔
    p b = true ∧ everywhereInValues p b.values = true ∧
      everywhereInStatements p b.statements = true := by
  cases b
  rw [everywhere, Bool.and_eq_true, Bool.and_eq_true, and_assoc]

theorem everywhere_of_get? {values : List (String × Block)}
    (all : everywhereInValues p values = true) (found : Entries.get? input values = some child) :
    child.everywhere p = true := by
  induction values with
  | nil => exact nomatch found
  | cons entry rest ih =>
    obtain ⟨name, b⟩ := entry
    rw [everywhereInValues, Bool.and_eq_true] at all
    rw [Entries.get?] at found
    split at found
    · exact Option.some.inj found ▸ all.1
    · exact ih all.2 found

theorem everywhere_of_mem {bs : List Block} (all : everywhereInSequence p bs = true)
    (mem : child ∈ bs) : child.everywhere p = true := by
  induction bs with
  | nil => exact absurd mem List.not_mem_nil
  | cons b rest ih =>
    rw [everywhereInSequence, Bool.and_eq_true] at all
    rcases List.mem_cons.mp mem with rfl | later
    · exact all.1
    · exact ih all.2 later

theorem everywhere_of_mem_sequence {statements : List (String × List Block)}
    (all : everywhereInStatements p statements = true)
    (mem : child ∈ (Entries.get? input statements).getD []) : child.everywhere p = true := by
  induction statements with
  | nil => exact absurd mem List.not_mem_nil
  | cons entry rest ih =>
    obtain ⟨name, bs⟩ := entry
    rw [everywhereInStatements, Bool.and_eq_true] at all
    rw [Entries.get?] at mem
    split at mem
    · exact everywhere_of_mem all.1 mem
    · exact ih all.2 mem

/-- A test that passes everywhere in a tree passes on every block that the tree contains. -/
theorem Contains.of_everywhere {inner : Block} (inside : b.Contains inner)
    (all : b.everywhere p = true) : p inner = true := by
  induction inside with
  | self b => exact (everywhere_iff.mp all).1
  | value found _ ih => exact ih (everywhere_of_get? (everywhere_iff.mp all).2.1 found)
  | statement mem _ ih => exact ih (everywhere_of_mem_sequence (everywhere_iff.mp all).2.2 mem)

end Blockwork.Block
