import Blockwork.Snippet.Basic

/-!
# What usages hold

Membership in the packages and imports of a usage, after each of the ways in which usages grow.
-/

namespace Blockwork

namespace Usage

variable {u : Usage} {name path : String} {names paths : List String}

/-! ### Noting packages -/

theorem mem_packages_note {package : String} :
    name ∈ (u.note package).packages ↔ name = package ∨ name ∈ u.packages :=
  NameSet.mem_insert

theorem mem_packages_foldl_note :
    name ∈ (names.foldl note u).packages ↔ name ∈ names ∨ name ∈ u.packages := by
  induction names generalizing u with
  | nil => simp
  | cons package rest ih =>
    rw [List.foldl_cons, ih, mem_packages_note, List.mem_cons]
    constructor
    · rintro (later | rfl | old)
      · exact .inl (.inr later)
      · exact .inl (.inl rfl)
      · exact .inr old
    · rintro ((rfl | later) | old)
      · exact .inr (.inl rfl)
      · exact .inl later
      · exact .inr (.inr old)

@[simp] theorem imports_foldl_note : (names.foldl note u).imports = u.imports := by
  induction names generalizing u with
  | nil => rfl
  | cons package rest ih => rw [List.foldl_cons, ih, note]

/-! ### Asking for imports -/

@[simp] theorem packages_foldl_ask : (paths.foldl ask u).packages = u.packages := by
  induction paths generalizing u with
  | nil => rfl
  | cons path rest ih => rw [List.foldl_cons, ih, ask]

theorem imports_foldl_ask : (paths.foldl ask u).imports = appendNew u.imports paths := by
  induction paths generalizing u with
  | nil => rfl
  | cons path rest ih => rw [List.foldl_cons, ih, ask, appendNew_cons]

/-! ### Putting usages together -/

theorem mem_packages_append {a b : Usage} :
    name ∈ (a ++ b).packages ↔ name ∈ a.packages ∨ name ∈ b.packages :=
  NameSet.mem_union

theorem mem_imports_append {a b : Usage} :
    path ∈ (a ++ b).imports ↔ path ∈ a.imports ∨ path ∈ b.imports :=
  mem_appendNew

end Usage

/-! ### Snippets -/

namespace Snippet

variable {s : Snippet} {names paths : List String} {name code : String} {order : Precedence}

@[simp] theorem code_inLines : (inLines code).code = code := rfl

@[simp] theorem code_expression : (expression code order).code = code := rfl

@[simp] theorem code_relyingOn : (s.relyingOn names).code = s.code := rfl

theorem mem_packages_relyingOn :
    name ∈ (s.relyingOn names).usage.packages ↔ name ∈ names ∨ name ∈ s.usage.packages :=
  Usage.mem_packages_foldl_note

end Snippet

end Blockwork
