/-!
# Lists without repetitions

Lists that record things in the order in which they first turned up. `addNew` appends an
element unless the list has it, `appendNew` does so for each element of a second list. Both
keep a list free of repetitions, and `mem_appendNew` says what the result holds. As an
operation on lists, `appendNew` is associative (`appendNew_assoc`).
-/

namespace Blockwork

variable {α : Type} [DecidableEq α]

/-- Appends an element that the list does not hold yet. -/
def addNew (xs : List α) (x : α) : List α :=
  if x ∈ xs then xs else xs ++ [x]

/-- Appends the elements of a second list that are not there yet, one after the other. -/
def appendNew (xs ys : List α) : List α :=
  ys.foldl addNew xs

theorem mem_addNew {xs : List α} {x y : α} : y ∈ addNew xs x ↔ y ∈ xs ∨ y = x := by
  rw [addNew]
  split
  · constructor
    · exact Or.inl
    · rintro (h | rfl) <;> assumption
  · simp

theorem nodup_addNew {xs : List α} (h : xs.Nodup) (x : α) : (addNew xs x).Nodup := by
  rw [addNew]
  split
  · exact h
  · rename_i hx
    refine List.nodup_append.2 ⟨h, by simp, ?_⟩
    rintro y hy z hz rfl
    simp at hz
    exact hx (hz ▸ hy)

@[simp] theorem appendNew_nil (xs : List α) : appendNew xs [] = xs := rfl

theorem appendNew_cons (xs ys : List α) (y : α) :
    appendNew xs (y :: ys) = appendNew (addNew xs y) ys := rfl

theorem appendNew_append (xs ys zs : List α) :
    appendNew xs (ys ++ zs) = appendNew (appendNew xs ys) zs := by
  simp [appendNew]

theorem mem_appendNew {xs ys : List α} {x : α} : x ∈ appendNew xs ys ↔ x ∈ xs ∨ x ∈ ys := by
  induction ys generalizing xs with
  | nil => simp
  | cons y ys ih => rw [appendNew_cons, ih, mem_addNew, List.mem_cons, or_assoc]

theorem nodup_appendNew {xs : List α} (h : xs.Nodup) (ys : List α) : (appendNew xs ys).Nodup := by
  induction ys generalizing xs with
  | nil => exact h
  | cons y ys ih => exact ih (nodup_addNew h y)

/-- An element that is there already changes nothing. -/
theorem addNew_of_mem {xs : List α} {x : α} (h : x ∈ xs) : addNew xs x = xs := by
  rw [addNew, if_pos h]

/-- Elements that are all there already change nothing. -/
theorem appendNew_of_subset {xs ys : List α} (h : ∀ y ∈ ys, y ∈ xs) : appendNew xs ys = xs := by
  induction ys with
  | nil => rfl
  | cons y ys ih =>
    rw [appendNew_cons, addNew_of_mem (h y (by simp))]
    exact ih fun z hz => h z (by simp [hz])

theorem appendNew_assoc (xs ys zs : List α) :
    appendNew (appendNew xs ys) zs = appendNew xs (appendNew ys zs) := by
  induction zs generalizing ys with
  | nil => rfl
  | cons z zs ih =>
    rw [appendNew_cons, appendNew_cons]
    -- Either both sides leave `z` out, or both put it at the end.
    by_cases hz : z ∈ appendNew xs ys
    · rw [addNew_of_mem hz, ih]
      rcases mem_appendNew.1 hz with h | h
      · by_cases hy : z ∈ ys
        · rw [addNew_of_mem hy]
        · rw [← ih, ← ih]
          congr 1
          rw [addNew, if_neg hy, appendNew_append, appendNew_cons, appendNew_nil,
            addNew_of_mem (mem_appendNew.2 (Or.inl h))]
      · rw [addNew_of_mem h]
    · have hy : z ∉ ys := fun h => hz (mem_appendNew.2 (Or.inr h))
      rw [← ih]
      congr 1
      rw [addNew, if_neg hz, addNew, if_neg hy, appendNew_append, appendNew_cons, appendNew_nil,
        addNew, if_neg hz]

end Blockwork
