import Blockwork.Proofs.Generation.Agreement
import Blockwork.Proofs.Store.Reliable
import Blockwork.Session.Program

/-!
# Sharing programs

A program is shared as a text, and without the position of its root if it has only one. Whoever
adopts it has the same program but for that position, and gets the same code
(`Session.adopt_published`): the text is read back, and nothing is compiled differently for want
of the position.
-/

namespace Blockwork

/-! ### The program that is shared -/

namespace Block

variable {b : Block}

theorem Ordered.unplaced (ordered : b.Ordered) : Block.Ordered { b with position := none } := by
  cases b
  exact ordered

/-- A block without its position has no numbers but those that it had. -/
theorem mem_numbers_of_unplaced {x : Binary64}
    (mem : x ∈ Block.numbers { b with position := none }) : x ∈ b.numbers := by
  obtain ⟨id, kind, position, fields, values, statements⟩ := b
  rw [numbers] at mem ⊢
  exact List.mem_append_right _ mem

/-- A block without its position nests no deeper than it did. -/
theorem depth_toJson_unplaced (b : Block) :
    (Block.toJson { b with position := none }).depth ≤ b.toJson.depth := by
  rw [toJson_eq, toJson_eq, Json.depth, Json.depth, Nat.add_le_add_iff_right,
    Json.depthOfMembers_present]
  have whole := (Json.depthOfMembers_present b.record _).mp (Nat.le_refl _)
  simp only [record, List.forall_mem_cons] at whole ⊢
  obtain ⟨id, kind, -, inputs⟩ := whole
  exact ⟨id, kind, Nat.zero_le _, inputs⟩

end Block

namespace Program

theorem withoutLonePosition_of_alone {p : Program} {root : Block} (alone : p.blocks = [root]) :
    p.withoutLonePosition = ⟨[{ root with position := none }]⟩ := by
  unfold withoutLonePosition
  rw [alone]

theorem withoutLonePosition_of_not_alone {p : Program} (several : ∀ root, p.blocks ≠ [root]) :
    p.withoutLonePosition = p := by
  unfold withoutLonePosition
  split
  · rename_i root alone
    exact absurd alone (several root)
  · rfl

/-- What is shared of a storable program is storable. -/
theorem Storable.withoutLonePosition {p : Program} (storable : p.Storable) :
    p.withoutLonePosition.Storable := by
  by_cases one : ∃ root, p.blocks = [root]
  · obtain ⟨root, alone⟩ := one
    obtain ⟨ordered, finite, faithful, shallow⟩ := storable
    have kept : ∀ x ∈ (Program.mk [{ root with position := none }]).numbers, x ∈ p.numbers := by
      intro x mem
      simp only [Program.numbers, alone, Block.numbersOfSequence, List.append_nil] at mem ⊢
      exact Block.mem_numbers_of_unplaced mem
    rw [withoutLonePosition_of_alone alone]
    rw [alone] at ordered
    refine ⟨⟨ordered.1.unplaced, trivial⟩, fun x mem => finite x (kept x mem),
      fun x mem => faithful x (kept x mem), ?_⟩
    refine Nat.le_trans ?_ shallow
    simp only [toJson, alone, Block.sequenceToJson, Json.depth, Json.depthOfMembers,
      Json.depthOfItems, Nat.max_zero, Nat.add_le_add_iff_right]
    exact root.depth_toJson_unplaced
  · rw [withoutLonePosition_of_not_alone fun root alone => one ⟨root, alone⟩]
    exact storable

end Program

/-! ### Places for shared programs -/

section

variable {σ : Type} [SharedPrograms σ]

/-- What was submitted before, with this key and this place as the answer, is what is fetched
with the key later. -/
def SharedPrograms.Keeps (before after later : σ) (key : String) : Prop :=
  ∀ text, submit before text = (.ok key, after) → (fetch later key).1 = .ok text

/-- A shelf keeps what is put on it. -/
theorem Shelf.keeps (shelf after : Shelf) (key : String) :
    SharedPrograms.Keeps shelf after after key := by
  intro text submitted
  obtain ⟨named, rfl⟩ := Prod.mk.inj submitted
  obtain rfl := Except.ok.inj named
  show Shelf.get (shelf.put shelf.nextKey text) shelf.nextKey = .ok text
  unfold Shelf.get Shelf.put
  rw [NameMap.get?_insert, if_pos rfl]

/-! ### Sharing -/

namespace Session

variable {s other : Session} {shared after later : σ} {key : String}

/-- Whoever reads the text of a storable program has that program. -/
theorem readProgram_toText {p : Program} (storable : p.Storable) (s : Session) :
    s.readProgram p.toText = (.ok (), s.withProgram p) := by
  unfold readProgram
  rw [storable.ofText_eq]

/-- What is published in a place that keeps it is adopted from there. -/
theorem adopt_of_publish (storable : s.program.Storable)
    (published : s.publish shared = (.ok key, after))
    (kept : SharedPrograms.Keeps shared after later key) (other : Session) :
    other.adopt later key =
      (.ok (), other.withProgram s.program.withoutLonePosition,
        (SharedPrograms.fetch later key).2) := by
  have fetched : SharedPrograms.fetch later key =
      (.ok s.program.withoutLonePosition.toText, (SharedPrograms.fetch later key).2) :=
    Prod.ext (kept _ published) rfl
  unfold adopt
  rw [fetched]
  simp only [readProgram_toText storable.withoutLonePosition]

/-- **Sharing keeps the meaning.** Let a session publish a program that its text gives back, and
let another session with the same settings, catalogue and selection adopt what is kept under the
key. Then the adopted program is the one that was published, except that a single root has lost
its position, and the other session gets the same source text as the first one, or the same
failure. -/
theorem adopt_published (storable : s.program.Storable)
    (published : s.publish shared = (.ok key, after))
    (kept : SharedPrograms.Keeps shared after later key) (settings : other.settings = s.settings)
    (catalogue : other.catalogue = s.catalogue) (selection : other.selection = s.selection) :
    let now := (other.adopt later key).2.1
    (other.adopt later key).1 = .ok () ∧
      (∀ root, s.program.blocks = [root] →
        now.program = ⟨[{ root with position := none }]⟩) ∧
      ((∀ root, s.program.blocks ≠ [root]) → now.program = s.program) ∧
      now.sourceText = s.sourceText := by
  intro now
  have adopted := adopt_of_publish storable published kept other
  have program : now.program = s.program.withoutLonePosition :=
    congrArg (·.2.1.program) adopted
  have compiler : now.compiler = s.compiler := by
    show (other.adopt later key).2.1.compiler = _
    rw [adopted]
    unfold Session.compiler available
    simp only [withProgram, settings, catalogue, selection]
  refine ⟨congrArg (·.1) adopted, fun root alone => ?_, fun several => ?_, ?_⟩
  · rw [program, Program.withoutLonePosition_of_alone alone]
  · rw [program, Program.withoutLonePosition_of_not_alone several]
  · unfold sourceText
    rw [compiler, program, Compiler.sourceText_withoutLonePosition]

end Session

end

namespace Session

/-- A main function on the canvas, shared where one program is already. -/
theorem adopt_published_of_main :
    let line : Block :=
      { id := "l", kind := "go", fields := [("line", .text "os.Exit(1)")] }
    let root : Block :=
      { id := "m", kind := "main", position := some ⟨.ofNat 120, .signedZero true⟩,
        statements := [("children", [line])] }
    let s : Session := { program := ⟨[root]⟩ }
    let other : Session := { program := ⟨[line]⟩ }
    let shelf : Shelf := ⟨.ofList [("k0", "")]⟩
    let after : Shelf := (s.publish shelf).2
    s.publish shelf = (.ok "k1", after) ∧
      (other.adopt after "k1").2.1.program = ⟨[{ root with position := none }]⟩ ∧
      (other.adopt after "k1").2.1.sourceText = s.sourceText := by
  intro line root s other shelf after
  have storable : s.program.Storable := by
    refine ⟨?_, by decide, by decide +kernel, by decide +kernel⟩
    simp [s, root, line, Block.OrderedSequence, Block.Ordered, Block.OrderedValues,
      Block.OrderedStatements, Entries.Ascending]
  have named : shelf.nextKey = "k1" := by decide +kernel
  have published : s.publish shelf = (.ok "k1", after) :=
    Prod.ext (congrArg Except.ok named) rfl
  obtain ⟨-, alone, -, same⟩ := @adopt_published Shelf _ s other shelf after after "k1" storable
    published (shelf.keeps after "k1") rfl rfl rfl
  exact ⟨published, alone root rfl, same⟩

end Session

end Blockwork
