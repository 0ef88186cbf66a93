import Blockwork.Collection.Entries

/-!
# Finite maps from names

A `NameMap α` holds its entries in ascending order of their names, so that two maps with the
same lookups are equal (`NameMap.ext_get?`) and listing a map is listing it in order.
-/

namespace Blockwork

/-- A finite map from names, its entries in ascending order. -/
structure NameMap (α : Type) where
  entries : List (String × α) := []
  ascending : Entries.Ascending entries := by exact Entries.Ascending.nil

namespace NameMap

variable {α : Type}

instance [DecidableEq α] : DecidableEq (NameMap α) := fun a b =>
  if h : a.entries = b.entries then
    isTrue (by cases a; cases b; simp_all)
  else isFalse fun same => h (congrArg entries same)

instance : Inhabited (NameMap α) := ⟨{}⟩

/-- The map without entries. -/
def empty : NameMap α := {}

/-- The value under a name. -/
def get? (m : NameMap α) (name : String) : Option α :=
  Entries.get? name m.entries

/-- Whether there is a value under a name. -/
def contains (m : NameMap α) (name : String) : Bool :=
  (m.get? name).isSome

/-- Sets the value under a name. -/
def insert (m : NameMap α) (name : String) (value : α) : NameMap α :=
  ⟨Entries.insert name value m.entries, m.ascending.insert name value⟩

/-- Takes the value under a name away. -/
def erase (m : NameMap α) (name : String) : NameMap α :=
  ⟨Entries.erase name m.entries, m.ascending.erase name⟩

/-- The map of a list of entries; of two with one name the later counts. -/
def ofList (entries : List (String × α)) : NameMap α :=
  ⟨Entries.ofList entries, Entries.ascending_ofList entries⟩

/-- The names in ascending order. -/
def names (m : NameMap α) : List String :=
  m.entries.map (·.1)

/-- The values in ascending order of their names. -/
def values (m : NameMap α) : List α :=
  m.entries.map (·.2)

/-- The number of entries. -/
def size (m : NameMap α) : Nat :=
  m.entries.length

/-- Whether there is no entry. -/
def isEmpty (m : NameMap α) : Bool :=
  m.entries.isEmpty

theorem get?_insert (m : NameMap α) (name key : String) (value : α) :
    (m.insert name value).get? key = if name = key then some value else m.get? key :=
  Entries.get?_insert name key value m.entries

theorem get?_erase (m : NameMap α) (name key : String) :
    (m.erase name).get? key = if name = key then none else m.get? key :=
  Entries.get?_erase name key m.entries

/-- Maps with the same lookups are equal. -/
theorem ext_get? {a b : NameMap α} (same : ∀ name, a.get? name = b.get? name) : a = b := by
  have := a.ascending.ext b.ascending same
  cases a; cases b; simp_all

end NameMap

end Blockwork
