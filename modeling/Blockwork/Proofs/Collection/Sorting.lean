/-!
# Stable sorting

Sorting and picking may change places (`filter_mergeSort`): a stable sort leaves the elements
that are picked in the order in which they would stand without the others. So elements that the
order does not tell apart stay in the order in which they were given (`filter_mergeSort_class`),
and a sorted list is determined by them: nothing else is left to choose
(`eq_of_sorted_of_classes`).
-/

namespace Blockwork

variable {α : Type} {le : α → α → Bool}

/-- A list has only one place where elements with a property end and others begin. -/
theorem append_split_unique {q : α → Bool} {xs ys xs' ys' : List α}
    (same : xs ++ ys = xs' ++ ys') (left : ∀ x ∈ xs, q x = true) (right : ∀ y ∈ ys, q y = false)
    (left' : ∀ x ∈ xs', q x = true) (right' : ∀ y ∈ ys', q y = false) :
    xs = xs' ∧ ys = ys' := by
  induction xs generalizing xs' with
  | nil =>
    cases xs' with
    | nil => exact ⟨rfl, same⟩
    | cons x rest =>
      have first : q x = false := right x (by rw [List.nil_append] at same; simp [same])
      rw [left' x List.mem_cons_self] at first
      exact nomatch first
  | cons x rest ih =>
    cases xs' with
    | nil =>
      rw [List.nil_append] at same
      have first : q x = false := right' x (by simp [← same])
      rw [left x List.mem_cons_self] at first
      exact nomatch first
    | cons x' rest' =>
      simp only [List.cons_append, List.cons.injEq] at same
      obtain ⟨rfl, same⟩ := same
      obtain ⟨rfl, rfl⟩ := ih same (fun y mem => left y (List.mem_cons_of_mem _ mem))
        fun y mem => left' y (List.mem_cons_of_mem _ mem)
      exact ⟨rfl, rfl⟩

/-- Picking elements of a sorted list is sorting the picked ones. -/
theorem filter_mergeSort (trans : ∀ a b c, le a b = true → le b c = true → le a c = true)
    (total : ∀ a b, (le a b || le b a) = true) (p : α → Bool) (l : List α) :
    (l.mergeSort le).filter p = (l.filter p).mergeSort le := by
  induction l with
  | nil => simp
  | cons a rest ih =>
    obtain ⟨before, behind, sorted, others, strictly⟩ := List.mergeSort_cons trans total a rest
    rw [others, List.filter_append] at ih
    cases picked : p a with
    | false =>
      rw [sorted, List.filter_append, List.filter_cons_of_neg (by simp [picked]),
        List.filter_cons_of_neg (by simp [picked])]
      exact ih
    | true =>
      obtain ⟨first, last, sorted', others', strictly'⟩ :=
        List.mergeSort_cons trans total a (rest.filter p)
      -- The new element stands right behind those that it may not precede, on both sides.
      have after : ∀ b ∈ behind, le a b = true := by
        have pairwise := List.pairwise_mergeSort trans total (a :: rest)
        rw [sorted, List.pairwise_append, List.pairwise_cons] at pairwise
        exact pairwise.2.1.1
      have after' : ∀ b ∈ last, le a b = true := by
        have pairwise := List.pairwise_mergeSort trans total (a :: rest.filter p)
        rw [sorted', List.pairwise_append, List.pairwise_cons] at pairwise
        exact pairwise.2.1.1
      rw [others'] at ih
      obtain ⟨sameFirst, sameLast⟩ := append_split_unique (q := fun b => !le a b) ih
        (fun b mem => strictly b (List.mem_filter.mp mem).1)
        (fun b mem => by simp [after b (List.mem_filter.mp mem).1]) strictly'
        fun b mem => by simp [after' b mem]
      rw [sorted, List.filter_append, List.filter_cons_of_pos picked,
        List.filter_cons_of_pos picked, sorted', sameFirst, sameLast]

/-! ### Classes of elements with one key -/

variable {κ : Type} [DecidableEq κ] {key : α → κ}

/-- Elements with one key stay in the order in which they were given. -/
theorem filter_mergeSort_class (trans : ∀ a b c, le a b = true → le b c = true → le a c = true)
    (total : ∀ a b, (le a b || le b a) = true) (level : ∀ a b, key a = key b → le a b = true)
    (l : List α) (k : κ) :
    (l.mergeSort le).filter (fun a => key a = k) = l.filter fun a => key a = k := by
  rw [filter_mergeSort trans total]
  apply List.mergeSort_of_pairwise
  rw [List.pairwise_filter]
  refine List.pairwise_of_forall fun a b first second => level a b ?_
  exact (of_decide_eq_true first).trans (of_decide_eq_true second).symm

theorem mem_of_classes {xs ys : List α}
    (same : ∀ k, (xs.filter fun a => key a = k) = ys.filter fun a => key a = k) {a : α}
    (mem : a ∈ xs) : a ∈ ys := by
  have here : a ∈ xs.filter fun b => key b = key a :=
    List.mem_filter.mpr ⟨mem, decide_eq_true rfl⟩
  rw [same] at here
  exact (List.mem_filter.mp here).1

/-- Sorted lists are equal when they have the same elements with each key, in the same order. -/
theorem eq_of_sorted_of_classes
    (antisymm : ∀ a b, le a b = true → le b a = true → key a = key b) {xs ys : List α}
    (sorted : xs.Pairwise fun a b => le a b = true)
    (sorted' : ys.Pairwise fun a b => le a b = true)
    (same : ∀ k, (xs.filter fun a => key a = k) = ys.filter fun a => key a = k) : xs = ys := by
  induction xs generalizing ys with
  | nil =>
    cases ys with
    | nil => rfl
    | cons b rest =>
      exact absurd (mem_of_classes (fun k => (same k).symm) List.mem_cons_self) List.not_mem_nil
  | cons a rest ih =>
    cases ys with
    | nil => exact absurd (mem_of_classes same List.mem_cons_self) List.not_mem_nil
    | cons b rest' =>
      rw [List.pairwise_cons] at sorted sorted'
      -- Each of the two first elements stands somewhere in the other list.
      have level : key b = key a := by
        rcases List.mem_cons.mp (mem_of_classes same (List.mem_cons_self (a := a))) with
          here | behind
        · rw [here]
        · rcases List.mem_cons.mp (mem_of_classes (fun k => (same k).symm)
            (List.mem_cons_self (a := b))) with here | behind'
          · rw [here]
          · exact antisymm b a (sorted'.1 a behind) (sorted.1 b behind')
      have first := same (key a)
      rw [List.filter_cons_of_pos (by simp), List.filter_cons_of_pos (by simpa using level)]
        at first
      obtain ⟨rfl, -⟩ := List.cons.inj first
      rw [ih sorted.2 sorted'.2 fun k => ?_]
      by_cases here : key a = k
      · have whole := same k
        rw [List.filter_cons_of_pos (by simpa using here),
          List.filter_cons_of_pos (by simpa using here)] at whole
        exact List.cons.inj whole |>.2
      · have whole := same k
        rwa [List.filter_cons_of_neg (by simpa using here),
          List.filter_cons_of_neg (by simpa using here)] at whole

/-- Lists with the same elements with each key have the same elements. -/
theorem perm_of_classes {xs ys : List α}
    (same : ∀ k, (xs.filter fun a => key a = k) = ys.filter fun a => key a = k) :
    xs.Perm ys := by
  classical
  rw [List.perm_iff_count]
  intro a
  have class' := congrArg (List.count a) (same (key a))
  rwa [List.count_filter (by simp), List.count_filter (by simp)] at class'

end Blockwork
