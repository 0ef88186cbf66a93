import Blockwork.Proofs.Block.Places
import Blockwork.SourceFile

/-!
# Where the roots are

A source file has the code of the roots in the order of their places. So it does not matter how a
program lists its roots, as long as those that share a place keep their order
(`Compiler.sourceFile_of_places`).
-/

namespace Blockwork.Compiler

/-- **Only the places of the roots count.** Whatever the settings, the catalogue and the available
paths:

* the order of the roots has all roots of the program, sorted by their places, and those with one
  place as they are listed;
* a program that lists the same roots at each place, in the same order, has the same roots, and it
  gives the same source file or the same failure. -/
theorem sourceFile_of_places (settings : Settings) (catalogue : Catalogue)
    (available : List String) (p : Program) :
    p.rootsInOrder.Perm p.blocks ∧
      p.rootsInOrder.Pairwise (fun a b => a.place ≤ b.place) ∧
      (∀ place, p.rootsInOrder.filter (·.place = place) = p.blocks.filter (·.place = place)) ∧
      ∀ q : Program,
        (∀ place, q.blocks.filter (·.place = place) = p.blocks.filter (·.place = place)) →
          q.blocks.Perm p.blocks ∧
            (ofSettings settings catalogue available).sourceFile q =
              (ofSettings settings catalogue available).sourceFile p := by
  refine ⟨List.mergeSort_perm _ _, p.sorted_rootsInOrder, p.rootsInOrder_class, ?_⟩
  intro q same
  refine ⟨perm_of_classes same, ?_⟩
  unfold sourceFile
  rw [Program.rootsInOrder_eq_iff.mpr same]

/-- Two roots without a position keep their order; a root at zero goes behind one at negative
zero, and one at no number behind both, wherever they are listed. -/
theorem sourceFile_of_places_of_zeros :
    let line (id code : String) (position : Option Point) : Block :=
      { id, kind := "go", position, fields := [("line", .text code)] }
    let first := line "a" "var a int" none
    let second := line "b" "var b int" none
    let above := line "c" "var c int" (some ⟨.zero, .signedZero true⟩)
    let below := line "d" "var d int" (some ⟨.zero, .zero⟩)
    let last := line "e" "var e int" (some ⟨.zero, .nan false⟩)
    let listed : Program := ⟨[last, below, first, above, second]⟩
    let sorted : Program := ⟨[first, second, above, below, last]⟩
    (∀ place, listed.blocks.filter (·.place = place) = sorted.blocks.filter (·.place = place)) ∧
      (ofSettings {} .ofBuiltins []).sourceFile listed =
        (ofSettings {} .ofBuiltins []).sourceFile sorted := by
  intro line first second above below last listed sorted
  have level : first.place = second.place := (Block.place_eq_iff _ _).mpr rfl
  have apart : [second, above, below, last].Pairwise fun a b => a.place ≠ b.place := by
    refine List.Pairwise.imp (R := fun a b => a.position ≠ b.position) ?_ (by decide)
    intro a b different same
    exact different ((Block.place_eq_iff a b).mp same)
  have same : ∀ place, listed.blocks.filter (·.place = place) =
      sorted.blocks.filter (·.place = place) := by
    intro place
    simp only [listed, sorted, List.filter_cons, List.filter_nil, level]
    simp only [List.pairwise_cons] at apart
    grind
  exact ⟨same, ((sourceFile_of_places {} .ofBuiltins [] sorted).2.2.2 listed same).2⟩

end Blockwork.Compiler
