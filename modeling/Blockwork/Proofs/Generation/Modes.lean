import Blockwork.Proofs.Generation.Lenient
import Blockwork.Proofs.Generation.Outcomes

/-!
# Strict and lenient compilation

The modes part ways only where a block of an unlisted type is generated, and there strict mode
fails at once. No other failure is lost or turned into another one in between:

* **outcomes** — `SameUnless`: the same outcome, unless the first is the failure at a type that
  is missing;
* **blocks** — `Compiler.compile_sameUnless`: so it is with a block in the two modes, the types
  being those missing in its tree;
* **the file** — `Compiler.sourceFile_strict_or_unlisted`, for a whole program.
-/

namespace Blockwork

/-- Both outcomes are the same, and no failure at an unlisted type; or the first is the failure
at an unlisted type that is missing. -/
inductive SameUnless (missing : String → Prop) {α : Type} :
    Except Failure α → Except Failure α → Prop where
  | answer (a : α) : SameUnless missing (.ok a) (.ok a)
  | failure {failure : Failure} (other : ∀ kind, failure ≠ .unlisted kind) :
      SameUnless missing (.error failure) (.error failure)
  | unlisted {kind : String} (missed : missing kind) (outcome : Except Failure α) :
      SameUnless missing (.error (.unlisted kind)) outcome

namespace SameUnless

variable {α : Type} {missing missing' : String → Prop} {outcome outcome' : Except Failure α}

theorem congruence (missing : String → Prop) : OutcomeCongruence (SameUnless missing) where
  ok := .answer
  bind first rest := by
    cases first with
    | answer a => exact rest a
    | failure other => exact .failure other
    | unlisted missed outcome => exact .unlisted missed _

theorem mono (same : SameUnless missing outcome outcome')
    (more : ∀ kind, missing kind → missing' kind) : SameUnless missing' outcome outcome' := by
  cases same with
  | answer a => exact .answer a
  | failure other => exact .failure other
  | unlisted missed outcome => exact .unlisted (more _ missed) _

theorem eq (same : SameUnless missing outcome outcome')
    (listed : ∀ kind, outcome ≠ .error (.unlisted kind)) : outcome' = outcome := by
  cases same with
  | answer a => rfl
  | failure other => rfl
  | unlisted missed outcome => exact absurd rfl (listed _)

theorem missed {kind : String} (same : SameUnless missing (.error (.unlisted kind)) outcome') :
    missing kind := by
  cases same with
  | failure other => exact absurd rfl (other kind)
  | unlisted missed => exact missed

end SameUnless

namespace Compiler

variable {c : Compiler} {b : Block}

/-- A type is unlisted, and a block of it is contained in the block. -/
def Misses (c : Compiler) (b : Block) (kind : String) : Prop :=
  c.catalogue.get? kind = none ∧ ∃ r, b.Contains r ∧ r.kind = kind

/-! ### One block -/

theorem Misses.of_value {child : Block} {input kind : String}
    (found : b.plugged? input = some child) (missed : c.Misses child kind) : c.Misses b kind := by
  obtain ⟨unlisted, r, inside, same⟩ := missed
  exact ⟨unlisted, r, .value found inside, same⟩

theorem Misses.of_statement {child : Block} {input kind : String}
    (mem : child ∈ b.sequenceIn input) (missed : c.Misses child kind) : c.Misses b kind := by
  obtain ⟨unlisted, r, inside, same⟩ := missed
  exact ⟨unlisted, r, .statement mem inside, same⟩

/-- The inputs of a block do the same in both modes when the blocks in them do, unless strict
mode fails at a type missing in the block. -/
theorem related_modes {t : BlockType}
    (values : ∀ input child, b.plugged? input = some child →
      Gen.Lifted (SameUnless (c.Misses child)) (c.strictly.compile child)
        (c.lenient.compile child))
    (statements : ∀ input, ∀ child ∈ b.sequenceIn input,
      Gen.Lifted (SameUnless (c.Misses child)) (c.strictly.compile child)
        (c.lenient.compile child)) :
    Holder.Related (Gen.Lifted (SameUnless (c.Misses b))) t (c.strictly.holder b)
      (c.lenient.holder b) where
  scalar? _ _ := rfl
  valueCode input _ := by
    refine related_valueCode (Gen.congruence_lifted (SameUnless.congruence _)) ?_
    cases found : b.plugged? input with
    | none => exact .none
    | some child =>
      refine .some ⟨fun frames => ?_, .fail (.failure nofun)⟩
      exact (values input child found frames).mono fun _ => .of_value found
  sequenceCode input _ := by
    refine related_sequenceCode (Gen.congruence_lifted (SameUnless.congruence _)) ?_
    refine List.forall₂_same.mpr fun child mem frames => ?_
    exact (statements input child mem frames).mono fun _ => .of_statement mem
  badField _ _ := .fail (.failure nofun)
  missingField _ := .fail (.failure nofun)

/-- A block does the same in both modes, unless strict mode fails at a type missing in it. -/
theorem compile_sameUnless (c : Compiler) (b : Block) :
    Gen.Lifted (SameUnless (c.Misses b)) (c.strictly.compile b) (c.lenient.compile b) := by
  induction b using Block.induction with
  | step b values statements =>
    cases listed : c.catalogue.get? b.kind with
    | none =>
      have fails : c.strictly.compile b = Gen.fail (.unlisted b.kind) :=
        compile_of_unlisted (c := c.strictly) listed
      intro frames
      rw [fails]
      exact .unlisted ⟨listed, b, .self b, rfl⟩ _
    | some listing =>
      exact lifted_of_listed (SameUnless.congruence _) listed listed rfl
        (related_modes values statements)

/-! ### The roots -/

theorem snippets_sameUnless (c : Compiler) (bs : List Block) :
    SameUnless (fun kind => ∃ b ∈ bs, c.Misses b kind) (c.strictly.snippets bs)
      (c.lenient.snippets bs) := by
  induction bs with
  | nil => exact .answer []
  | cons b rest ih =>
    have outcomes := SameUnless.congruence fun kind => ∃ other ∈ b :: rest, c.Misses other kind
    have first := (c.compile_sameUnless b).outcome (SameUnless.congruence _)
    rw [snippets_cons_eq, snippets_cons_eq]
    refine outcomes.bind ?_ fun s => outcomes.map ?_ _
    · exact first.mono fun _ missed => ⟨b, List.mem_cons_self, missed⟩
    · refine ih.mono ?_
      rintro kind ⟨other, mem, missed⟩
      exact ⟨other, List.mem_cons_of_mem _ mem, missed⟩

/-! ### The file -/

/-- **The modes differ by the failure at unlisted types only.** Whatever the catalogue, the
available paths and the other settings: if a program does not fail at an unlisted type in strict
mode, it gives the same source file or the same failure in lenient mode; and if it does, then
the type is unlisted and the program contains a block of it. -/
theorem sourceFile_strict_or_unlisted (settings : Settings) (catalogue : Catalogue)
    (available : List String) (p : Program) :
    ((∀ kind, (ofSettings { settings with strict := true } catalogue available).sourceFile p ≠
        .error (.unlisted kind)) →
      (ofSettings { settings with strict := false } catalogue available).sourceFile p =
        (ofSettings { settings with strict := true } catalogue available).sourceFile p) ∧
    ∀ kind, (ofSettings { settings with strict := true } catalogue available).sourceFile p =
        .error (.unlisted kind) →
      catalogue.get? kind = none ∧ ∃ root ∈ p.blocks, ∃ r, root.Contains r ∧ r.kind = kind := by
  let c := ofSettings settings catalogue available
  have same : SameUnless (fun kind => ∃ b ∈ p.rootsInOrder, c.Misses b kind)
      (c.strictly.sourceFile p) (c.lenient.sourceFile p) :=
    (SameUnless.congruence _).map (c.snippets_sameUnless p.rootsInOrder) _
  refine ⟨same.eq, fun kind failed => ?_⟩
  have failed : c.strictly.sourceFile p = .error (.unlisted kind) := failed
  rw [failed] at same
  obtain ⟨root, mem, unlisted, r, inside, rfl⟩ := same.missed
  exact ⟨unlisted, root, List.mem_mergeSort.mp mem, r, inside, rfl⟩

/-- A main function with a block of an unlisted type in an input. -/
def mainAround (input : String) : Program :=
  ⟨[{ id := "m", kind := "main", statements := [(input, [{ id := "u", kind := "mystery" }])] }]⟩

/-- In an input that main functions do not declare the block is not met at all; in their body
it is. -/
theorem sourceFile_strict_or_unlisted_of_main :
    (ofSettings { strict := false } .ofBuiltins []).sourceFile (mainAround "hidden") =
      .ok { body := "func main() \x7b\n\x7d\n" } ∧
    Catalogue.ofBuiltins.get? "mystery" = none ∧
      ∃ root ∈ (mainAround "children").blocks, ∃ r, root.Contains r ∧ r.kind = "mystery" := by
  have hidden := sourceFile_strict_or_unlisted {} .ofBuiltins [] (mainAround "hidden")
  have body := sourceFile_strict_or_unlisted {} .ofBuiltins [] (mainAround "children")
  have made : (ofSettings { strict := true } .ofBuiltins []).sourceFile (mainAround "hidden") =
      .ok { body := "func main() \x7b\n\x7d\n" } := by
    unfold sourceFile
    rw [Program.rootsInOrder_of_sorted (by decide)]
    decide +kernel
  have failed : (ofSettings { strict := true } .ofBuiltins []).sourceFile (mainAround "children") =
      .error (.unlisted "mystery") := by
    unfold sourceFile
    rw [Program.rootsInOrder_of_sorted (by decide)]
    decide +kernel
  refine ⟨(hidden.1 fun kind => ?_).trans made, body.2 "mystery" failed⟩
  rw [made]
  exact nofun

end Compiler

end Blockwork
