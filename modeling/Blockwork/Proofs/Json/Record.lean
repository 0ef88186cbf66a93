import Blockwork.Json.Decode
import Blockwork.Proofs.Json.RoundTrip

/-!
# Records, and how deep documents nest

A record is written as an object of the members that are there (`Json.present`), and its members
are found again by their names (`Json.record?_present`). `Json.depth` counts how many lists and
objects stand inside one another in a document; a record nests one level deeper than its
members do.
-/

namespace Blockwork.Json

/-! ### Members that are there -/

/-- The members that are there, in their order. -/
def present (entries : List (String × Option Json)) : List (String × Json) :=
  entries.filterMap fun entry => entry.2.map fun value => (entry.1, value)

theorem mem_present {entries : List (String × Option Json)} {member : String × Json} :
    member ∈ present entries ↔ (member.1, some member.2) ∈ entries := by
  unfold present
  rw [List.mem_filterMap]
  constructor
  · rintro ⟨⟨name, value⟩, mem, made⟩
    obtain ⟨j, there, rfl⟩ := Option.map_eq_some_iff.mp made
    exact there ▸ mem
  · intro mem
    exact ⟨_, mem, rfl⟩

theorem filter_present_of_not_mem {entries : List (String × Option Json)} {name : String}
    (absent : name ∉ entries.map (·.1)) :
    (present entries).filter (fun member => member.1 = name) = [] := by
  rw [List.filter_eq_nil_iff]
  intro member mem same
  exact absent (of_decide_eq_true same ▸ List.mem_map_of_mem (mem_present.mp mem))

/-- Under a name that occurs once there is the member of that name, if it is there. -/
theorem filter_present {entries : List (String × Option Json)}
    (distinct : (entries.map (·.1)).Nodup) {name : String} {value : Option Json}
    (mem : (name, value) ∈ entries) :
    (present entries).filter (fun member => member.1 = name) =
      (value.map fun j => (name, j)).toList := by
  induction entries with
  | nil => exact absurd mem List.not_mem_nil
  | cons entry rest ih =>
    obtain ⟨first, j⟩ := entry
    rw [List.map_cons, List.nodup_cons] at distinct
    obtain ⟨fresh, distinct⟩ := distinct
    have whole : present ((first, j) :: rest) =
        (j.map fun value => (first, value)).toList ++ present rest := by
      unfold present
      cases j <;> rfl
    rw [whole, List.filter_append]
    rcases List.mem_cons.mp mem with here | there
    · obtain ⟨rfl, rfl⟩ := Prod.mk.inj here
      rw [filter_present_of_not_mem fresh, List.append_nil]
      cases value with
      | none => rfl
      | some j => exact List.filter_cons_of_pos (decide_eq_true rfl)
    · have other : first ≠ name := by
        rintro rfl
        exact fresh (List.mem_map_of_mem (f := (·.1)) there)
      rw [ih distinct there]
      cases j with
      | none => rfl
      | some j =>
        show (List.filter _ [(first, j)]) ++ _ = _
        rw [List.filter_cons_of_neg (by simp [other])]
        rfl

/-- The members of a record are found again by their names. -/
theorem record?_present {names : List String} (entries : List (String × Option Json))
    (named : entries.map (·.1) = names) (distinct : names.Nodup) :
    record? names (.object (present entries)) = some (entries.map (·.2)) := by
  subst named
  have once : (entries.map (·.1)).all (fun name =>
      decide (((present entries).filter fun member => member.1 = name).length ≤ 1)) = true := by
    rw [List.all_eq_true]
    intro name mem
    obtain ⟨⟨name, value⟩, inside, rfl⟩ := List.mem_map.mp mem
    rw [filter_present distinct inside]
    cases value <;> rfl
  rw [record?, if_pos once, List.map_map]
  refine congrArg some (List.map_congr_left fun entry mem => ?_)
  obtain ⟨name, value⟩ := entry
  have found := filter_present distinct mem
  show ((present entries).find? fun member => decide (member.1 = name)).map (·.2) = value
  rw [← List.head?_filter, found]
  cases value <;> rfl

/-- The member that holds a map; a map without entries is left out. -/
def ofMap? (members : List (String × Json)) : Option Json :=
  if members.isEmpty then none else some (.object members)

/-! ### Depth -/

mutual

/-- How many lists and objects stand inside one another in a document. -/
def depth : Json → Nat
  | .array items => depthOfItems items + 1
  | .object members => depthOfMembers members + 1
  | _ => 0

/-- How deep the items of a list nest. -/
def depthOfItems : List Json → Nat
  | [] => 0
  | item :: rest => max item.depth (depthOfItems rest)

/-- How deep the members of an object nest. -/
def depthOfMembers : List (String × Json) → Nat
  | [] => 0
  | (_, value) :: rest => max value.depth (depthOfMembers rest)

end

/-- How deep a member nests that may be missing. -/
def depthOf? (member : Option Json) : Nat :=
  member.elim 0 depth

theorem depthOf?_string (s : String) : depthOf? (some (.string s)) = 0 := by
  show depth _ = 0
  simp only [depth]

theorem depthOfMembers_present (entries : List (String × Option Json)) (room : Nat) :
    depthOfMembers (present entries) ≤ room ↔ ∀ entry ∈ entries, depthOf? entry.2 ≤ room := by
  induction entries with
  | nil => simp [present, depthOfMembers]
  | cons entry rest ih =>
    obtain ⟨name, member⟩ := entry
    rw [List.forall_mem_cons, ← ih]
    cases member with
    | none => simp [present, depthOf?]
    | some j =>
      show max j.depth (depthOfMembers (present rest)) ≤ room ↔ _
      rw [Nat.max_le]
      rfl

theorem depth_real (x : Binary64) : (real x).depth = 0 := by
  unfold real
  split <;> simp only [depth]

/-! ### Proper numerals -/

theorem properMembers_iff {members : List (String × Json)} :
    ProperMembers members ↔ ∀ member ∈ members, member.2.Proper := by
  induction members with
  | nil => simp [ProperMembers]
  | cons member rest ih => rw [ProperMembers, ih, List.forall_mem_cons]

theorem proper_of_ofMap? {members : List (String × Json)} {j : Json}
    (made : ofMap? members = some j) (proper : ProperMembers members) : j.Proper := by
  unfold ofMap? at made
  split at made
  · exact nomatch made
  · obtain rfl := Option.some.inj made
    rw [Proper]
    exact proper

theorem proper_real (x : Binary64) : (real x).Proper := by
  unfold real
  split
  · rw [Proper]
    exact Numeral.isProper_ofBinary64 x
  · simp only [Proper]

end Blockwork.Json
