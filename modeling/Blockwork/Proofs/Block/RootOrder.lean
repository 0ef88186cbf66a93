import Blockwork.Block.Program
import Blockwork.Proofs.Collection.Sorting

/-!
# The order of roots

Positions are ordered totally, so that the roots of a program stand in an order
(`Program.pairwise_mayPrecede`). Roots that are picked stay in it, and so do roots that change
without a change of their positions.
-/

namespace Blockwork

theorem Point.mayPrecede_total (p q : Option Point) :
    (mayPrecede p q || mayPrecede q p) = true := by
  cases p with
  | none => rfl
  | some p =>
    cases q with
    | none => rfl
    | some q =>
      simp only [mayPrecede, Bool.or_eq_true, Bool.and_eq_true, decide_eq_true_eq, beq_iff_eq]
      omega

theorem Point.mayPrecede_trans (p q r : Option Point) (first : mayPrecede p q = true)
    (second : mayPrecede q r = true) : mayPrecede p r = true := by
  cases p with
  | none => rfl
  | some p =>
    cases q with
    | none => exact nomatch first
    | some q =>
      cases r with
      | none => exact nomatch second
      | some r =>
        simp only [mayPrecede, Bool.or_eq_true, Bool.and_eq_true, decide_eq_true_eq,
          beq_iff_eq] at first second ⊢
        omega

namespace Program

/-- Every root stands somewhere in the order. -/
theorem mem_rootsInOrder (p : Program) {b : Block} : b ∈ p.rootsInOrder ↔ b ∈ p.blocks :=
  List.mem_mergeSort

/-- Roots that are listed in order stay as they are. -/
theorem rootsInOrder_of_sorted {p : Program}
    (sorted : p.blocks.Pairwise fun a b => Point.mayPrecede a.position b.position = true) :
    p.rootsInOrder = p.blocks :=
  List.mergeSort_of_pairwise sorted

/-- Roots that are picked stay in their order. -/
theorem rootsInOrder_filter (p : Program) (keep : Block → Bool) :
    (Program.mk (p.blocks.filter keep)).rootsInOrder = p.rootsInOrder.filter keep := by
  unfold rootsInOrder
  rw [filter_mergeSort]
  · exact fun a b c => Point.mayPrecede_trans a.position b.position c.position
  · exact fun a b => Point.mayPrecede_total a.position b.position

/-- A change that leaves every position leaves the order of the roots. -/
theorem rootsInOrder_map (p : Program) (change : Block → Block)
    (kept : ∀ b, (change b).position = b.position) :
    (Program.mk (p.blocks.map change)).rootsInOrder = p.rootsInOrder.map change := by
  unfold rootsInOrder
  refine (List.map_mergeSort fun a _ b _ => ?_).symm
  rw [kept, kept]

theorem pairwise_mayPrecede (p : Program) :
    p.rootsInOrder.Pairwise fun a b => Point.mayPrecede a.position b.position = true :=
  List.pairwise_mergeSort
    (fun a b c => Point.mayPrecede_trans a.position b.position c.position)
    (fun a b => Point.mayPrecede_total a.position b.position) p.blocks

end Program

end Blockwork
