import Mathlib.Data.List.Fold
import Blockwork.Collection.NameMap

/-!
# Writing one thing after the other

What a run of writes leaves behind:

* **the last write counts** — `lookup_foldl`, where each write sets what is found under its own
  name and leaves the other names alone;
* **a run may be repeated** — `foldl_foldl_self`, where writes may change places and a write may
  be repeated.

`NameMap.change` is a write of the second kind as long as the changes themselves are.
-/

namespace Blockwork

theorem isSome_findRev? {α : Type} {p : α → Bool} {xs : List α} :
    (xs.findRev? p).isSome ↔ ∃ x ∈ xs, p x = true := by
  rw [List.findRev?_eq_find?_reverse, List.find?_isSome]
  simp

/-- The last of the writes with a name counts for it. -/
theorem lookup_foldl {σ α β : Type} (look : String → σ → Option β) {write : σ → α → σ}
    {key : α → String} {value : α → β}
    (written : ∀ state x name,
      look name (write state x) = if key x = name then some (value x) else look name state)
    (xs : List α) (state : σ) (name : String) :
    look name (xs.foldl write state) =
      ((xs.findRev? fun x => key x = name).map value).or (look name state) := by
  induction xs generalizing state with
  | nil => rfl
  | cons x rest ih =>
    rw [List.foldl_cons, ih, written, List.findRev?]
    cases rest.findRev? fun x => key x = name with
    | some later => rfl
    | none => by_cases here : key x = name <;> simp [here]

/-- Writes that may change places and be repeated may be repeated as a whole. -/
theorem foldl_foldl_self {σ α : Type} {write : σ → α → σ} [RightCommutative write]
    (again : ∀ state x, write (write state x) x = write state x) (xs : List α) (state : σ) :
    xs.foldl write (xs.foldl write state) = xs.foldl write state := by
  induction xs generalizing state with
  | nil => rfl
  | cons x rest ih =>
    -- The second write of `x` goes in front of the other first ones, to the first write of `x`.
    have early : write (rest.foldl write (write state x)) x =
        rest.foldl write (write (write state x) x) := List.foldl_cons_eq_apply_foldl.symm
    calc (x :: rest).foldl write ((x :: rest).foldl write state)
        = rest.foldl write (write (rest.foldl write (write state x)) x) := rfl
      _ = rest.foldl write (rest.foldl write (write state x)) := by rw [early, again]
      _ = (x :: rest).foldl write state := ih _

namespace NameMap

variable {α : Type} {m : NameMap α} {default : α} {f g : α → α} {name key : String}

/-- Changes the value under a name; where there is none yet, the default. -/
def change (m : NameMap α) (default : α) (name : String) (f : α → α) : NameMap α :=
  m.insert name (f ((m.get? name).getD default))

theorem get?_change :
    (m.change default name f).get? key =
      if name = key then some (f ((m.get? key).getD default)) else m.get? key := by
  unfold change
  rw [get?_insert]
  by_cases same : name = key
  · rw [if_pos same, if_pos same, same]
  · rw [if_neg same, if_neg same]

theorem change_comm (comm : ∀ a, g (f a) = f (g a)) :
    (m.change default name f).change default key g =
      (m.change default key g).change default name f := by
  apply ext_get?
  intro other
  simp only [get?_change]
  by_cases first : name = other
  · by_cases second : key = other
    · simp [first, second, comm]
    · simp [first, second]
  · simp [first]

theorem change_change (again : ∀ a, f (f a) = f a) :
    (m.change default name f).change default name f = m.change default name f := by
  apply ext_get?
  intro other
  simp only [get?_change]
  by_cases same : name = other
  · simp [same, again]
  · simp [same]

end NameMap

end Blockwork
