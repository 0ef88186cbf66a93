import Blockwork.Proofs.Collection.Firsts
import Blockwork.Proofs.Snippet.Usage

/-!
# Usages as ordered unions

What comes of putting usages together. The packages are those of both. The imports are those of the
first usage as it lists them, and behind them those that only the second one has, in the order in
which they turn up there (`Usage.append_ordered_union`). A usage can list an import twice, and then
every usage that starts with it does; nothing else does.
-/

namespace Blockwork.Usage

variable {a b : Usage}

/-- The imports of the first usage stand in front as they are, and the new ones of the second
behind them. -/
theorem exists_imports_append (a b : Usage) :
    ∃ new, (a ++ b).imports = a.imports ++ new ∧
      ListsFirsts new (b.imports.filter (· ∉ a.imports)) :=
  ⟨_, appendNew_eq_append a.imports b.imports, listsFirsts_iff.mpr rfl⟩

/-- What is put to a usage a second time changes nothing. -/
theorem append_append_self (a b : Usage) : a ++ b ++ b = a ++ b := by
  apply ext_parts
  · apply NameSet.ext_mem
    intro name
    rw [mem_packages_append, or_iff_left_of_imp fun mem => mem_packages_append.mpr (.inr mem)]
  · exact appendNew_of_subset fun path mem => mem_imports_append.mpr (.inr mem)

/-- Behind the empty usage, one whose imports are listed once stays as it is, and no other. -/
theorem empty_append_eq_iff : ({} : Usage) ++ a = a ↔ a.imports.Nodup := by
  have packages : (({} : Usage) ++ a).packages = a.packages := by
    apply NameSet.ext_mem
    intro name
    rw [mem_packages_append, or_iff_right (NameSet.not_mem_empty name)]
  rw [← collect_eq_self_iff]
  constructor
  · exact congrArg imports
  · exact ext_parts packages

/-- Usages list an import twice together exactly when the first one does. -/
theorem nodup_imports_append : (a ++ b).imports.Nodup ↔ a.imports.Nodup := by
  obtain ⟨new, whole, -⟩ := exists_imports_append a b
  constructor
  · intro distinct
    rw [whole] at distinct
    exact (List.nodup_append.mp distinct).1
  · exact fun distinct => nodup_appendNew distinct b.imports

/-- **Usages together.** Putting usages together is an ordered union. It does not matter which of
three are put together first, and to put one to the others again changes nothing. The empty usage
adds nothing, and in front of another one it adds nothing exactly when that one lists its imports
once. Of two usages, the packages are those of both, and the imports are those of the first, with
the first occurrences of what only the second one imports behind them; so an import is listed twice
exactly when the first usage lists one twice. -/
theorem append_ordered_union (a b c : Usage) :
    a ++ b ++ c = a ++ (b ++ c) ∧
      a ++ b ++ b = a ++ b ∧
      a ++ {} = a ∧
      ({} ++ a = a ↔ a.imports.Nodup) ∧
      (∀ name, name ∈ (a ++ b).packages ↔ name ∈ a.packages ∨ name ∈ b.packages) ∧
      (∃ new, (a ++ b).imports = a.imports ++ new ∧
        ListsFirsts new (b.imports.filter (· ∉ a.imports))) ∧
      ((a ++ b).imports.Nodup ↔ a.imports.Nodup) :=
  ⟨append_assoc a b c, append_append_self a b, append_empty a, empty_append_eq_iff,
    fun _ => mem_packages_append, exists_imports_append a b, nodup_imports_append⟩

end Blockwork.Usage
