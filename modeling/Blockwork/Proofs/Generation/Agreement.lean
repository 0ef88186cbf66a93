import Blockwork.Proofs.Generation.Congruence
import Blockwork.SourceFile

/-!
# What generation sees

A generator reads the fields of its block and the codes of its inputs, and nothing else. Two
holders that agree in these generate the same (`Generator.snippet_congr`). So the position of a
block does not matter to its code (`compile_of_position`); where it is the only root, it does not
matter to the program's (`sourceText_withoutLonePosition`). Of the catalogue a compiler sees the
types and the known names, but not the palette (`sourceText_withPalette`).
-/

namespace Blockwork

/-- The holders' blocks have the same identity and fields, and their inputs the same codes. -/
structure Holder.Agrees (h h' : Holder) : Prop where
  id : h.block.id = h'.block.id
  fields : h.block.fields = h'.block.fields
  valueCode : h.valueCode = h'.valueCode
  sequenceCode : h.sequenceCode = h'.sequenceCode

theorem Gen.congruence_eq :
    Gen.Congruence fun {α} (action action' : Gen α) => action = action' where
  pure _ := rfl
  note _ := rfl
  noted := rfl
  bind := by
    rintro α β action _ next next' rfl same
    exact congrArg (action >>= ·) (funext same)

variable {h h' : Holder}

theorem Holder.Agrees.related (agrees : h.Agrees h') (t : BlockType) :
    Related (fun {_} action action' => action = action') t h h' where
  scalar? name _ := by
    unfold Block.scalar?
    rw [agrees.fields]
  valueCode name _ outer := by rw [agrees.valueCode]
  sequenceCode name _ := by rw [agrees.sequenceCode]
  badField name fault := by rw [agrees.id]
  missingField name := by rw [agrees.id]

/-- What a generator answers depends on the fields and the codes of the inputs only. -/
theorem Generator.snippet_congr (agrees : h.Agrees h') (env : Surroundings) (g : Generator) :
    g.snippet env h = g.snippet env h' :=
  g.related Gen.congruence_eq (agrees.related g.blockType)

namespace Compiler

/-! ### Positions -/

theorem compile_of_position (c : Compiler) (b : Block) (position : Option Point) :
    c.compile { b with position } = c.compile b := by
  have agrees : (c.holder { b with position }).Agrees (c.holder b) := ⟨rfl, rfl, rfl, rfl⟩
  rw [compile_eq, compile_eq]
  unfold compileHolder
  simp only [Generator.snippet_congr agrees]
  rfl

/-- A program that is shared gives the code that it gives here. -/
theorem sourceText_withoutLonePosition (c : Compiler) (p : Program) :
    c.sourceText p.withoutLonePosition = c.sourceText p := by
  unfold Program.withoutLonePosition
  split
  · rename_i root alone
    have order : p.rootsInOrder = [root] := by
      unfold Program.rootsInOrder
      rw [alone, List.mergeSort_singleton]
    have order' : Program.rootsInOrder ⟨[{ root with position := none }]⟩ =
        [{ root with position := none }] := List.mergeSort_singleton _
    unfold sourceText sourceFile snippets
    rw [order, order', List.mapM_cons, List.mapM_cons, compile_of_position]
  · rfl

/-! ### The palette -/

/-- The compiler whose catalogue has another palette. -/
def withPalette (c : Compiler) (palette : List PaletteSection) : Compiler :=
  { c with catalogue := { c.catalogue with palette } }

variable (c : Compiler) (palette : List PaletteSection)

mutual

theorem compile_withPalette (b : Block) : (c.withPalette palette).compile b = c.compile b := by
  obtain ⟨id, kind, position, fields, values, statements⟩ := b
  rw [compile, compile, plugs_withPalette values, inputs_withPalette statements]
  rfl

theorem plugs_withPalette (values : List (String × Block)) :
    (c.withPalette palette).plugs values = c.plugs values := by
  cases values with
  | nil => rfl
  | cons entry rest => rw [plugs, plugs, compile_withPalette entry.2, plugs_withPalette rest]

theorem inputs_withPalette (statements : List (String × List Block)) :
    (c.withPalette palette).inputs statements = c.inputs statements := by
  cases statements with
  | nil => rfl
  | cons entry rest => rw [inputs, inputs, sequence_withPalette entry.2, inputs_withPalette rest]

theorem sequence_withPalette (bs : List Block) :
    (c.withPalette palette).sequence bs = c.sequence bs := by
  cases bs with
  | nil => rfl
  | cons b rest => rw [sequence, sequence, compile_withPalette b, sequence_withPalette rest]

end

/-- The palette does not matter to the code. -/
theorem sourceText_withPalette (p : Program) :
    (c.withPalette palette).sourceText p = c.sourceText p := by
  unfold sourceText sourceFile snippets
  simp only [compile_withPalette]
  rfl

end Compiler

end Blockwork
