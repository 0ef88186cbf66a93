import Mathlib.Data.List.Basic
import Blockwork.Collection.Distinct

/-!
# First occurrences

`ListsFirsts ys xs` says that `ys` has the elements of `xs`, each once, in the order in which they
turn up in `xs` first. There is one such list, and collecting the elements one after the other gives
it (`listsFirsts_iff`). So the elements that are appended to a list as new are the first occurrences
among those that it does not hold (`appendNew_eq_append`).
-/

namespace Blockwork

variable {α : Type} [DecidableEq α] {xs ys zs : List α}

/-- The elements of `xs`, each once, in the order in which they turn up first. -/
structure ListsFirsts (ys xs : List α) : Prop where
  mem_iff : ∀ x, x ∈ ys ↔ x ∈ xs
  inOrder : ys.Pairwise fun x y => xs.idxOf x < xs.idxOf y

namespace ListsFirsts

theorem nil : ListsFirsts ([] : List α) [] :=
  ⟨fun _ => .rfl, .nil⟩

theorem nodup (firsts : ListsFirsts ys xs) : ys.Nodup := by
  refine firsts.inOrder.imp ?_
  rintro x y before rfl
  exact Nat.lt_irrefl _ before

/-- The first occurrences are listed in one way only. -/
theorem unique (one : ListsFirsts ys xs) (other : ListsFirsts zs xs) : ys = zs := by
  have perm : ys.Perm zs := (List.perm_ext_iff_of_nodup one.nodup other.nodup).mpr fun x =>
    (one.mem_iff x).trans (other.mem_iff x).symm
  refine perm.eq_of_pairwise ?_ one.inOrder other.inOrder
  intro x y _ _ before behind
  exact absurd before (Nat.lt_asymm behind)

/-- An element behind the others is a first occurrence unless it occurs before. -/
theorem concat (firsts : ListsFirsts ys xs) (x : α) : ListsFirsts (addNew ys x) (xs ++ [x]) := by
  have mem : ∀ y, y ∈ addNew ys x ↔ y ∈ xs ++ [x] := by
    intro y
    rw [mem_addNew, firsts.mem_iff, List.mem_append, List.mem_singleton]
  -- The places of the elements that were there stay the same.
  have places : ys.Pairwise fun y z => (xs ++ [x]).idxOf y < (xs ++ [x]).idxOf z := by
    refine firsts.inOrder.imp_of_mem ?_
    intro y z listed listed' before
    rwa [List.idxOf_append_of_mem ((firsts.mem_iff y).mp listed),
      List.idxOf_append_of_mem ((firsts.mem_iff z).mp listed')]
  refine ⟨mem, ?_⟩
  unfold addNew
  split
  · exact places
  · rename_i new
    refine List.pairwise_append.mpr ⟨places, List.pairwise_singleton _ _, ?_⟩
    intro y listed z last
    obtain rfl := List.mem_singleton.mp last
    have inside := (firsts.mem_iff y).mp listed
    rw [List.idxOf_append_of_mem inside,
      List.idxOf_append_of_notMem fun mem => new ((firsts.mem_iff z).mpr mem)]
    exact Nat.lt_add_right _ (List.idxOf_lt_length_iff.mpr inside)

/-- The new ones among further elements go behind the first occurrences. -/
theorem append (firsts : ListsFirsts ys xs) (more : List α) :
    ListsFirsts (appendNew ys more) (xs ++ more) := by
  induction more generalizing ys xs with
  | nil => rwa [List.append_nil]
  | cons x more ih =>
    rw [appendNew_cons, List.append_cons]
    exact ih (firsts.concat x)

end ListsFirsts

/-- Collecting the elements one after the other lists the first occurrences. -/
theorem listsFirsts_iff : ListsFirsts ys xs ↔ ys = appendNew [] xs := by
  have collected : ListsFirsts (appendNew [] xs) xs := ListsFirsts.nil.append xs
  constructor
  · exact fun firsts => firsts.unique collected
  · rintro rfl
    exact collected

/-- What a list holds already is passed over, and what is new is collected behind it. -/
theorem appendNew_eq_append (xs ys : List α) :
    appendNew xs ys = xs ++ appendNew [] (ys.filter (· ∉ xs)) := by
  suffices ∀ new, appendNew (xs ++ new) ys = xs ++ appendNew new (ys.filter (· ∉ xs)) by
    have whole := this []
    rwa [List.append_nil] at whole
  induction ys with
  | nil => exact fun _ => rfl
  | cons y ys ih =>
    intro new
    by_cases old : y ∈ xs
    · rw [appendNew_cons, addNew_of_mem (List.mem_append_left new old),
        List.filter_cons_of_neg (by simpa using old), ih]
    · rw [List.filter_cons_of_pos (by simpa using old), appendNew_cons, appendNew_cons, ← ih]
      congr 1
      unfold addNew
      by_cases there : y ∈ new
      · rw [if_pos there, if_pos (List.mem_append_right xs there)]
      · have absent : y ∉ xs ++ new := fun mem => (List.mem_append.mp mem).elim old there
        rw [if_neg there, if_neg absent, List.append_assoc]

/-- Elements that are new and differ from each other are appended as they are. -/
theorem appendNew_of_nodup (distinct : (xs ++ ys).Nodup) : appendNew xs ys = xs ++ ys := by
  induction ys generalizing xs with
  | nil => rw [appendNew_nil, List.append_nil]
  | cons y ys ih =>
    have new : y ∉ xs := fun mem =>
      (List.nodup_append.mp distinct).2.2 y mem y List.mem_cons_self rfl
    rw [List.append_cons] at distinct ⊢
    rw [appendNew_cons, addNew, if_neg new, ih distinct]

/-- Collecting leaves a list as it is exactly when nothing occurs in it twice. -/
theorem collect_eq_self_iff : appendNew [] xs = xs ↔ xs.Nodup := by
  constructor
  · intro same
    rw [← same]
    exact nodup_appendNew List.nodup_nil xs
  · intro distinct
    exact appendNew_of_nodup (by rwa [List.nil_append])

end Blockwork
