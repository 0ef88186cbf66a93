import Blockwork.Json.Basic

/-!
# Results under a condition

A reader gives back a value exactly under some condition, and nothing otherwise (`Gives`). The
parts of a record, a list or a map are read one after the other, each under a condition of its
own; together they are read under all of these conditions.
-/

namespace Blockwork

/-- The result is this value when the condition holds, and there is none otherwise. -/
def Gives {α : Type} (condition : Prop) (value : α) (result : Option α) : Prop :=
  (condition → result = some value) ∧ (¬ condition → result = none)

namespace Gives

variable {α β : Type} {p q : Prop} {a : α} {b : β} {result : Option α}

theorem congr (given : Gives p a result) (same : p ↔ q) : Gives q a result :=
  ⟨fun holds => given.1 (same.mpr holds), fun fails => given.2 fun holds => fails (same.mp holds)⟩

theorem pure (a : α) : Gives True a (some a) :=
  ⟨fun _ => rfl, fun fails => absurd trivial fails⟩

theorem map (given : Gives p a result) (f : α → β) : Gives p (f a) (result.map f) := by
  refine ⟨fun holds => ?_, fun fails => ?_⟩
  · rw [given.1 holds]
    rfl
  · rw [given.2 fails]
    rfl

theorem bind (given : Gives p a result) {next : α → Option β} (after : Gives q b (next a)) :
    Gives (p ∧ q) b (result >>= next) := by
  by_cases first : p
  · rw [given.1 first]
    exact after.congr (and_iff_right first).symm
  · rw [given.2 first]
    exact ⟨fun both => absurd both.1 first, fun _ => rfl⟩

theorem cons {f : β → Option α} {x : β} {xs : List β} {as : List α} (first : Gives p a (f x))
    (others : Gives q as (xs.mapM f)) : Gives (p ∧ q) (a :: as) ((x :: xs).mapM f) := by
  rw [List.mapM_cons]
  refine (first.bind (others.bind (Gives.pure (a :: as)))).congr ?_
  rw [and_true]

/-- A member in front of others: its value is read by itself. -/
theorem entry {read : Json → Option α} {name : String} {j : Json} {values : List (String × α)}
    {members : List (String × Json)} (first : Gives p a (read j))
    (others : Gives q values
      (members.mapM fun member => (read member.2).map fun value => (member.1, value))) :
    Gives (p ∧ q) ((name, a) :: values)
      (((name, j) :: members).mapM fun member =>
        (read member.2).map fun value => (member.1, value)) :=
  cons (first.map fun value => (name, value)) others

theorem nil (f : β → Option α) : Gives True [] (([] : List β).mapM f) := by
  rw [List.mapM_nil]
  exact Gives.pure []

end Gives

end Blockwork
