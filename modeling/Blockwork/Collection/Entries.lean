/-!
# Named entries in ascending order

A list of named values whose names ascend strictly, the plain form of a finite map from
names. The functions keep the order (`Ascending.insert`, `Ascending.erase`), and an ascending
list is determined by its lookups (`Ascending.ext`). `NameMap` wraps such a list together with
the proof; a tree whose nodes hold maps of subtrees uses the lists themselves.
-/

namespace Blockwork.Entries

variable {α : Type}

/-- The names ascend strictly, so that none occurs twice. -/
def Ascending (entries : List (String × α)) : Prop :=
  entries.Pairwise fun a b => a.1 < b.1

/-- The value of the first entry with this name. -/
def get? (name : String) : List (String × α) → Option α
  | [] => none
  | (n, v) :: rest => if n = name then some v else get? name rest

/-- Puts an entry at its place; an entry of the same name there is replaced. -/
def insert (name : String) (value : α) : List (String × α) → List (String × α)
  | [] => [(name, value)]
  | (n, v) :: rest =>
    if name < n then (name, value) :: (n, v) :: rest
    else if name = n then (name, value) :: rest
    else (n, v) :: insert name value rest

/-- Takes every entry of this name away. -/
def erase (name : String) (entries : List (String × α)) : List (String × α) :=
  entries.filter fun entry => entry.1 ≠ name

/-- The entries of a list, in ascending order; of two with one name the later counts. -/
def ofList (entries : List (String × α)) : List (String × α) :=
  entries.foldl (fun built entry => insert entry.1 entry.2 built) []

/-! ### Lookups -/

@[simp] theorem get?_nil (name : String) : get? name ([] : List (String × α)) = none := rfl

theorem get?_insert (name key : String) (value : α) (entries : List (String × α)) :
    get? key (insert name value entries) = if name = key then some value else get? key entries := by
  induction entries with
  | nil => simp [insert, get?]
  | cons entry rest ih =>
    obtain ⟨n, v⟩ := entry
    rw [insert]
    split
    · simp [get?]
    · split
      · subst n; by_cases h : name = key <;> simp [get?, h]
      · rename_i hne
        simp only [get?, ih]
        by_cases h : n = key
        · have : name ≠ key := by grind
          simp [h, this]
        · simp [h]

theorem get?_map {β : Type} (f : α → β) (name : String) (entries : List (String × α)) :
    get? name (entries.map fun entry => (entry.1, f entry.2)) = (get? name entries).map f := by
  induction entries with
  | nil => rfl
  | cons entry rest ih =>
    obtain ⟨n, v⟩ := entry
    rw [List.map_cons, get?, get?]
    split
    · rfl
    · exact ih

theorem get?_filter (p : String → Bool) (name : String) (entries : List (String × α)) :
    get? name (entries.filter fun entry => p entry.1) =
      if p name then get? name entries else none := by
  induction entries with
  | nil => simp
  | cons entry rest ih =>
    obtain ⟨n, v⟩ := entry
    -- Either the entry goes and the lookup with it, or the entry stays in front.
    by_cases here : n = name
    · subst here
      cases kept : p n with
      | true => simp [kept, get?]
      | false => simp [kept, ih]
    · rw [get?, if_neg here, ← ih, List.filter_cons]
      split
      · rw [get?, if_neg here]
      · rfl

theorem get?_erase (name key : String) (entries : List (String × α)) :
    get? key (erase name entries) = if name = key then none else get? key entries := by
  unfold erase
  rw [get?_filter fun other => decide (other ≠ name)]
  by_cases same : name = key
  · simp [same]
  · simp [same, Ne.symm same]

theorem mem_of_get? {name : String} {value : α} {entries : List (String × α)}
    (h : get? name entries = some value) : (name, value) ∈ entries := by
  induction entries with
  | nil => simp at h
  | cons entry rest ih =>
    obtain ⟨n, v⟩ := entry
    rw [get?] at h
    split at h
    · simp_all
    · exact List.mem_cons_of_mem _ (ih h)

/-! ### Order -/

theorem Ascending.nil : Ascending ([] : List (String × α)) := List.Pairwise.nil

theorem mem_insert {name : String} {value : α} {entry : String × α} {entries : List (String × α)}
    (h : entry ∈ insert name value entries) : entry = (name, value) ∨ entry ∈ entries := by
  induction entries with
  | nil => simpa [insert] using h
  | cons first rest ih =>
    obtain ⟨n, v⟩ := first
    rw [insert] at h
    split at h
    · simpa using h
    · split at h <;> grind

theorem Ascending.insert {entries : List (String × α)} (ascending : Ascending entries)
    (name : String) (value : α) : Ascending (insert name value entries) := by
  induction entries with
  | nil => simp [Entries.insert, Ascending]
  | cons first rest ih =>
    obtain ⟨n, v⟩ := first
    rw [Ascending, List.pairwise_cons] at ascending
    obtain ⟨below, tail⟩ := ascending
    rw [Entries.insert]
    split
    · rename_i hlt
      refine List.pairwise_cons.2 ⟨?_, List.pairwise_cons.2 ⟨below, tail⟩⟩
      intro entry hmem
      rcases List.mem_cons.1 hmem with rfl | hmem
      · exact hlt
      · exact String.lt_trans hlt (below _ hmem)
    · split
      · rename_i heq
        refine List.pairwise_cons.2 ⟨fun entry hmem => ?_, tail⟩
        have := below _ hmem
        simp_all
      · refine List.pairwise_cons.2 ⟨fun entry hmem => ?_, ih tail⟩
        rcases mem_insert hmem with rfl | hmem
        · grind
        · exact below _ hmem

theorem Ascending.erase {entries : List (String × α)} (ascending : Ascending entries)
    (name : String) : Ascending (erase name entries) :=
  List.Pairwise.filter _ ascending

theorem ascending_ofList (entries : List (String × α)) : Ascending (ofList entries) := by
  suffices ∀ built, Ascending built →
      Ascending (entries.foldl (fun built entry => insert entry.1 entry.2 built) built) from
    this [] Ascending.nil
  induction entries with
  | nil => exact fun _ h => h
  | cons entry rest ih => exact fun built h => ih _ (h.insert entry.1 entry.2)

/-- An entry with a name above all names of a list goes to its end. -/
theorem insert_of_above {name : String} {entries : List (String × α)}
    (above : ∀ entry ∈ entries, entry.1 < name) (value : α) :
    insert name value entries = entries ++ [(name, value)] := by
  induction entries with
  | nil => rfl
  | cons first rest ih =>
    obtain ⟨n, v⟩ := first
    have here : n < name := above _ List.mem_cons_self
    have distinct : name ≠ n := by
      rintro rfl
      exact String.lt_irrefl _ here
    rw [insert, if_neg (String.lt_asymm here), if_neg distinct,
      ih fun entry mem => above entry (List.mem_cons_of_mem _ mem), List.cons_append]

/-- Entries that ascend are put together as they are. -/
theorem ofList_of_ascending {entries : List (String × α)} (ascending : Ascending entries) :
    ofList entries = entries := by
  suffices ∀ built, Ascending (built ++ entries) →
      entries.foldl (fun built entry => insert entry.1 entry.2 built) built = built ++ entries from
    this [] ascending
  clear ascending
  induction entries with
  | nil => exact fun built _ => (List.append_nil built).symm
  | cons entry rest ih =>
    intro built ascending
    have above : ∀ earlier ∈ built, earlier.1 < entry.1 := fun earlier mem =>
      (List.pairwise_append.mp ascending).2.2 earlier mem entry List.mem_cons_self
    rw [List.append_cons] at ascending ⊢
    rw [List.foldl_cons, insert_of_above above]
    exact ih _ ascending

/-- A name below all names of a list has no entry in it. -/
theorem get?_eq_none_of_below {name : String} {entries : List (String × α)}
    (below : ∀ entry ∈ entries, name < entry.1) : get? name entries = none := by
  cases h : get? name entries with
  | none => rfl
  | some v => exact absurd (below _ (mem_of_get? h)) (String.lt_irrefl _)

/-- Two ascending lists with the same lookups are the same list. -/
theorem Ascending.ext {xs ys : List (String × α)} (hx : Ascending xs) (hy : Ascending ys)
    (same : ∀ name, get? name xs = get? name ys) : xs = ys := by
  induction xs generalizing ys with
  | nil =>
    cases ys with
    | nil => rfl
    | cons y rest => have := same y.1; simp [get?] at this
  | cons x xs ih =>
    cases ys with
    | nil => have := same x.1; simp [get?] at this
    | cons y ys =>
      rw [Ascending, List.pairwise_cons] at hx hy
      have fromX : (x.1, x.2) ∈ y :: ys :=
        mem_of_get? ((same x.1).symm.trans (by simp [get?]))
      have fromY : (y.1, y.2) ∈ x :: xs :=
        mem_of_get? ((same y.1).trans (by simp [get?]))
      -- Each head occurs in the other list, and neither may stand behind the other.
      have hxy : x.1 = y.1 := by
        rcases List.mem_cons.1 fromX with h | h
        · exact congrArg Prod.fst h
        · rcases List.mem_cons.1 fromY with h' | h'
          · exact (congrArg Prod.fst h').symm
          · exact absurd (hy.1 _ h) (String.lt_asymm (hx.1 _ h'))
      have here := same x.1
      simp only [get?, hxy, if_true, Option.some.injEq] at here
      have hval : x = y := Prod.ext hxy here
      subst hval
      -- The lookups of the tails differ from those of the lists in the head's name only.
      rw [ih hx.2 hy.2]
      intro name
      have there := same name
      simp only [get?] at there
      by_cases h : x.1 = name
      · subst h
        rw [get?_eq_none_of_below hx.1, get?_eq_none_of_below hy.1]
      · simpa [h] using there

end Blockwork.Entries
