import Mathlib.Data.Int.ConditionallyCompleteOrder
import Mathlib.Data.Prod.Lex
import Mathlib.Order.ConditionallyCompleteLattice.Basic
import Blockwork.Proofs.Block.RootOrder

/-!
# The places of roots

Each root has a place (`Block.place`), and places are ordered totally:

* **roots are sorted by their places** — `Program.sorted_rootsInOrder`, and those with one place
  stay in the order in which they are listed (`Program.rootsInOrder_class`);
* **nothing but places counts** — `Program.rootsInOrder_eq_iff`: programs have the same order of
  roots exactly when they list the same roots at each place, in the same order.
-/

namespace Blockwork

/-- What the order of roots goes by: roots without a position come first, the others are ordered
by their heights and then by their horizontal places. -/
def Block.place (b : Block) : WithBot (Int ×ₗ Int) :=
  match b.position with
  | none => ⊥
  | some p => (toLex p.orderKey : Int ×ₗ Int)

theorem Block.mayPrecede_iff (a b : Block) :
    Point.mayPrecede a.position b.position = true ↔ a.place ≤ b.place := by
  unfold place
  cases a.position with
  | none => exact iff_of_true rfl bot_le
  | some p =>
    cases b.position with
    | none => exact iff_of_false nofun (WithBot.not_coe_le_bot _)
    | some q =>
      simp [Point.mayPrecede, Prod.Lex.toLex_le_toLex]

/-- Numbers that are not the same have different keys, so that roots share a place only when they
share a position. -/
theorem Block.place_eq_iff (a b : Block) : a.place = b.place ↔ a.position = b.position := by
  unfold place
  cases a.position with
  | none => cases b.position <;> simp
  | some p =>
    cases b.position with
    | none => simp
    | some q =>
      obtain ⟨x, y⟩ := p
      obtain ⟨x', y'⟩ := q
      simp only [Point.orderKey, WithBot.coe_inj, toLex_inj, Prod.mk.injEq, Option.some.injEq,
        Point.mk.injEq]
      constructor
      · rintro ⟨rows, columns⟩
        exact ⟨Binary64.orderKey_injective columns, Binary64.orderKey_injective rows⟩
      · rintro ⟨rfl, rfl⟩
        exact ⟨rfl, rfl⟩

namespace Program

/-! ### Sorted roots -/

theorem sorted_rootsInOrder (p : Program) :
    p.rootsInOrder.Pairwise fun a b => a.place ≤ b.place :=
  p.pairwise_mayPrecede.imp fun {a b} precedes => (a.mayPrecede_iff b).mp precedes

/-- Roots with one place stay in the order in which they are listed. -/
theorem rootsInOrder_class (p : Program) (place : WithBot (Int ×ₗ Int)) :
    p.rootsInOrder.filter (·.place = place) = p.blocks.filter (·.place = place) :=
  filter_mergeSort_class
    (fun a b c => Point.mayPrecede_trans a.position b.position c.position)
    (fun a b => Point.mayPrecede_total a.position b.position)
    (fun a b same => (a.mayPrecede_iff b).mpr same.le) p.blocks place

/-- The order of the roots is told by which roots have which place, and by their order there. -/
theorem rootsInOrder_eq_iff {p q : Program} :
    p.rootsInOrder = q.rootsInOrder ↔
      ∀ place, p.blocks.filter (·.place = place) = q.blocks.filter (·.place = place) := by
  constructor
  · intro same place
    rw [← p.rootsInOrder_class, ← q.rootsInOrder_class, same]
  · intro same
    have level : ∀ a b : Block, Point.mayPrecede a.position b.position = true →
        Point.mayPrecede b.position a.position = true → a.place = b.place := by
      intro a b first second
      exact le_antisymm ((a.mayPrecede_iff b).mp first) ((b.mayPrecede_iff a).mp second)
    refine eq_of_sorted_of_classes level p.pairwise_mayPrecede q.pairwise_mayPrecede ?_
    intro place
    rw [rootsInOrder_class, rootsInOrder_class, same]

end Program

end Blockwork
