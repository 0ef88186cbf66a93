import Blockwork.Package.Item

/-!
# Package items that passed the check

What `PackageItem.check` lets through are the well-named items (`toOption_check`): the package, the
item and its parameters have names that are identifiers, and no two parameters share theirs.
-/

namespace Blockwork.PackageItem

variable {item : PackageItem}

theorem fault?_of_check {checked : PackageItem} (passed : item.check = .ok checked) :
    checked.fault? = none := by
  unfold check at passed
  cases fault : item.fault? with
  | some found =>
    rw [fault] at passed
    exact nomatch passed
  | none =>
    rw [fault] at passed
    cases passed
    exact fault

/-- All names in an item are identifiers, and no two of its parameters have the same. -/
structure WellNamed (item : PackageItem) : Prop where
  package : Text.isIdentifier item.package = true
  name : Text.isIdentifier item.name = true
  parameters : ∀ p ∈ item.parameters, Text.isIdentifier p.name = true
  distinct : (item.parameters.map (·.name)).Nodup

theorem parameterFault?_eq_none_iff {parameters : List Parameter} {seen : List String} :
    parameterFault? seen parameters = none ↔
      (∀ p ∈ parameters, Text.isIdentifier p.name = true) ∧
        (parameters.map (·.name)).Nodup ∧ ∀ p ∈ parameters, p.name ∉ seen := by
  induction parameters generalizing seen with
  | nil => simp [parameterFault?]
  | cons first rest ih =>
    -- A name that the rest must not have is one seen before or the first one's.
    have apart : (∀ p ∈ rest, p.name ∉ first.name :: seen) ↔
        first.name ∉ rest.map (·.name) ∧ ∀ p ∈ rest, p.name ∉ seen := by
      simp only [List.mem_cons, List.mem_map, not_or, not_exists, not_and, imp_and, forall_and]
    rw [parameterFault?, List.map_cons, List.nodup_cons, List.forall_mem_cons,
      List.forall_mem_cons]
    cases word : Text.isIdentifier first.name with
    | false => simp
    | true =>
      by_cases repeated : first.name ∈ seen
      · simp [repeated]
      · rw [if_neg (by simp), if_neg repeated, ih, apart]
        grind

/-- The items without a fault are the well-named ones. -/
theorem fault?_eq_none_iff : item.fault? = none ↔ item.WellNamed := by
  have whole : item.WellNamed ↔ Text.isIdentifier item.package = true ∧
      Text.isIdentifier item.name = true ∧ parameterFault? [] item.parameters = none := by
    rw [parameterFault?_eq_none_iff]
    constructor
    · rintro ⟨package, name, parameters, distinct⟩
      exact ⟨package, name, parameters, distinct, fun _ _ => List.not_mem_nil⟩
    · rintro ⟨package, name, parameters, distinct, -⟩
      exact ⟨package, name, parameters, distinct⟩
  rw [whole, fault?]
  cases package : Text.isIdentifier item.package with
  | false => simp
  | true =>
    cases name : Text.isIdentifier item.name with
    | false => simp
    | true => simp

instance (item : PackageItem) : Decidable item.WellNamed :=
  decidable_of_iff _ fault?_eq_none_iff

/-- What is made of an item that the check lets through is made of the item itself. -/
theorem map_map_check {α β : Type} (item : PackageItem) (f : PackageItem → α) (g : α → β) :
    (item.check.map f).map g = item.check.map fun _ => g (f item) := by
  unfold check
  cases item.fault? with
  | some found => rfl
  | none => rfl

/-- The check lets an item through as it is when it is well-named, and no other item. -/
theorem toOption_check (item : PackageItem) :
    item.check.toOption = if item.WellNamed then some item else none := by
  unfold check
  cases fault : item.fault? with
  | some found =>
    rw [if_neg]
    · rfl
    · rw [← fault?_eq_none_iff, fault]
      exact nofun
  | none =>
    rw [if_pos (fault?_eq_none_iff.mp fault)]
    rfl

/-- The names in an item without a fault are identifiers. -/
theorem isIdentifier_of_fault? (faultless : item.fault? = none) :
    Text.isIdentifier item.package = true ∧ Text.isIdentifier item.name = true ∧
      ∀ p ∈ item.parameters, Text.isIdentifier p.name = true :=
  have named := fault?_eq_none_iff.mp faultless
  ⟨named.package, named.name, named.parameters⟩

theorem underscore_mem_typeName (item : PackageItem) : '_' ∈ item.typeName.toList := by
  simp [typeName, toString]

end Blockwork.PackageItem
