import Blockwork.Catalogue
import Blockwork.Generation.Builtin
import Blockwork.Generation.Item

/-!
# Compiling blocks

A `Compiler` is a catalogue together with what its blocks have in common during a run. Its
`compile` turns a block into the action that generates it. The recursion follows the tree: the
generator of a block gets the actions of its children, and which of them run, and when, is up
to the generator (`compile_eq`).
-/

namespace Blockwork

/-- What a block generates, by the generator of its type. -/
def Generator.snippet (env : Surroundings) (h : Holder) : Generator → Gen Snippet
  | builtin b => b.snippet env h
  | call item => item.snippet h
  | literal item => item.snippet h
  | recipe r => r.snippet env h

/-- A catalogue and the settings under which its blocks are compiled. -/
structure Compiler where
  catalogue : Catalogue
  /-- Import paths that entry points import when code refers to their packages. -/
  available : List String := []
  indent : String := "\t"
  /-- Whether blocks of unlisted types are an error or generate nothing. -/
  strict : Bool := true

namespace Compiler

/-- What generators know besides their block. -/
def surroundings (c : Compiler) : Surroundings :=
  ⟨c.available, c.catalogue.knownNames, c.indent⟩

/-- Generates a block whose children have become actions. A block of a listed type has a frame
of its own. -/
def compileHolder (c : Compiler) (h : Holder) : Gen Snippet :=
  match c.catalogue.get? h.block.kind with
  | some listing => Gen.framed (listing.generator.snippet c.surroundings h)
  | none => if c.strict then Gen.fail (.unlisted h.block.kind) else pure {}

mutual

/-- Generates a block. -/
def compile (c : Compiler) : Block → Gen Snippet
  | ⟨id, kind, position, fields, values, statements⟩ =>
    c.compileHolder
      { block := ⟨id, kind, position, fields, values, statements⟩
        values := c.plugs values
        statements := c.inputs statements }

/-- The blocks in value slots with their actions. -/
def plugs (c : Compiler) : List (String × Block) → List (String × Plug)
  | [] => []
  | (name, b) :: rest => (name, ⟨b, c.compile b⟩) :: c.plugs rest

/-- The actions of the blocks in statement inputs. -/
def inputs (c : Compiler) : List (String × List Block) → List (String × List (Gen Snippet))
  | [] => []
  | (name, bs) :: rest => (name, c.sequence bs) :: c.inputs rest

/-- The actions of the blocks of a sequence. -/
def sequence (c : Compiler) : List Block → List (Gen Snippet)
  | [] => []
  | b :: rest => c.compile b :: c.sequence rest

end

/-- A block with the actions of the blocks plugged into it. -/
def holder (c : Compiler) (b : Block) : Holder :=
  ⟨b, c.plugs b.values, c.inputs b.statements⟩

/-- What a block generates is up to its generator, which gets the actions of its children. -/
theorem compile_eq (c : Compiler) (b : Block) : c.compile b = c.compileHolder (c.holder b) := by
  cases b; rw [compile, holder]

theorem sequence_eq_map (c : Compiler) (bs : List Block) : c.sequence bs = bs.map c.compile := by
  induction bs with
  | nil => rw [sequence, List.map_nil]
  | cons b rest ih => rw [sequence, ih, List.map_cons]

end Compiler

end Blockwork
