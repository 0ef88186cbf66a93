/-!
# Finite sets of names

A `NameSet` holds its members in ascending order, so that sets with the same members are
equal (`NameSet.ext_mem`) and listing a set is listing it in order.
-/

namespace Blockwork

/-- A finite set of names, listed in ascending order. -/
structure NameSet where
  members : List String := []
  ascending : members.Pairwise (· < ·) := by exact List.Pairwise.nil

namespace NameSet

instance : DecidableEq NameSet := fun a b =>
  if h : a.members = b.members then
    isTrue (by cases a; cases b; simp_all)
  else isFalse fun same => h (congrArg members same)

instance : Inhabited NameSet := ⟨{}⟩

instance : Membership String NameSet := ⟨fun s name => name ∈ s.members⟩

instance (name : String) (s : NameSet) : Decidable (name ∈ s) :=
  inferInstanceAs (Decidable (name ∈ s.members))

/-- The set without members. -/
def empty : NameSet := {}

/-- Puts a name at its place in an ascending list, unless it is there. -/
def place (name : String) : List String → List String
  | [] => [name]
  | n :: rest =>
    if name < n then name :: n :: rest
    else if name = n then n :: rest
    else n :: place name rest

theorem mem_place {name key : String} {names : List String} :
    key ∈ place name names ↔ key = name ∨ key ∈ names := by
  induction names with
  | nil => simp [place]
  | cons n rest ih =>
    rw [place]
    split
    · simp
    · split <;> grind

theorem pairwise_place {names : List String} (ascending : names.Pairwise (· < ·))
    (name : String) : (place name names).Pairwise (· < ·) := by
  induction names with
  | nil => simp [place]
  | cons n rest ih =>
    obtain ⟨below, tail⟩ := List.pairwise_cons.1 ascending
    rw [place]
    split
    · rename_i hlt
      refine List.pairwise_cons.2 ⟨fun key hkey => ?_, ascending⟩
      rcases List.mem_cons.1 hkey with rfl | hkey
      · exact hlt
      · exact String.lt_trans hlt (below _ hkey)
    · split
      · exact ascending
      · refine List.pairwise_cons.2 ⟨fun key hkey => ?_, ih tail⟩
        rcases mem_place.1 hkey with rfl | hkey
        · grind
        · exact below _ hkey

/-- Adds a name. -/
def insert (s : NameSet) (name : String) : NameSet :=
  ⟨place name s.members, pairwise_place s.ascending name⟩

/-- Adds every name of a list. -/
def insertAll (s : NameSet) (names : List String) : NameSet :=
  names.foldl insert s

/-- The set of the names in a list. -/
def ofList (names : List String) : NameSet :=
  empty.insertAll names

/-- The members of both sets together. -/
def union (s t : NameSet) : NameSet :=
  s.insertAll t.members

/-- Whether there is no member. -/
def isEmpty (s : NameSet) : Bool :=
  s.members.isEmpty

/-! ### Members -/

@[simp] theorem not_mem_empty (name : String) : ¬ name ∈ empty :=
  List.not_mem_nil

@[simp] theorem mem_insert {s : NameSet} {name key : String} :
    key ∈ s.insert name ↔ key = name ∨ key ∈ s :=
  mem_place

@[simp] theorem mem_insertAll {s : NameSet} {names : List String} {key : String} :
    key ∈ s.insertAll names ↔ key ∈ s ∨ key ∈ names := by
  induction names generalizing s with
  | nil => simp [insertAll]
  | cons name rest ih =>
    have : s.insertAll (name :: rest) = (s.insert name).insertAll rest := rfl
    rw [this, ih, mem_insert, List.mem_cons]
    grind

@[simp] theorem mem_ofList {names : List String} {key : String} :
    key ∈ ofList names ↔ key ∈ names := by
  simp [ofList]

@[simp] theorem mem_union {s t : NameSet} {key : String} :
    key ∈ s.union t ↔ key ∈ s ∨ key ∈ t :=
  mem_insertAll

/-- Ascending lists with the same members are the same list. -/
theorem ext_ascending {xs ys : List String} (hx : xs.Pairwise (· < ·))
    (hy : ys.Pairwise (· < ·)) (same : ∀ name, name ∈ xs ↔ name ∈ ys) : xs = ys := by
  induction xs generalizing ys with
  | nil =>
    cases ys with
    | nil => rfl
    | cons y ys => exact absurd ((same y).2 (by simp)) (by simp)
  | cons x xs ih =>
    cases ys with
    | nil => exact absurd ((same x).1 (by simp)) (by simp)
    | cons y ys =>
      obtain ⟨belowX, tailX⟩ := List.pairwise_cons.1 hx
      obtain ⟨belowY, tailY⟩ := List.pairwise_cons.1 hy
      -- Each head is in the other list, and neither may stand behind the other.
      have hxy : x = y := by
        rcases List.mem_cons.1 ((same x).1 (by simp)) with h | h
        · exact h
        · rcases List.mem_cons.1 ((same y).2 (by simp)) with h' | h'
          · exact h'.symm
          · exact absurd (belowX _ h') (String.lt_asymm (belowY _ h))
      subst hxy
      rw [ih tailX tailY]
      intro name
      have here := same name
      simp only [List.mem_cons] at here
      constructor
      · intro h
        rcases here.1 (Or.inr h) with rfl | h'
        · exact absurd (belowX _ h) (String.lt_irrefl _)
        · exact h'
      · intro h
        rcases here.2 (Or.inr h) with rfl | h'
        · exact absurd (belowY _ h) (String.lt_irrefl _)
        · exact h'

/-- Sets with the same members are equal. -/
theorem ext_mem {a b : NameSet} (same : ∀ name, name ∈ a ↔ name ∈ b) : a = b := by
  suffices a.members = b.members by cases a; cases b; simp_all
  exact ext_ascending a.ascending b.ascending same

end NameSet

end Blockwork
