import Blockwork.Package.Intake
import Blockwork.Proofs.Catalogue.Palette

/-!
# Batches of entries

A `Batch` is what one text lists, the functions or the structs of a package. Taking batches into a
catalogue writes to its three parts, and to each of them on its own (`takeBatches_eq`):

* **the types** — each candidate is listed, so the last one of a name counts;
* **the known names** — each candidate tells one of its package, and none is forgotten;
* **the palette** — each batch puts in a section.

What is told of a batch has nothing to do with the catalogue. Taking the same batches in again
changes nothing (`takeBatches_again`).
-/

namespace Blockwork

/-- The entries of one part of a package, with the package's path and its index in the user's
selection. -/
inductive Batch where
  | functions (path : String) (index : Nat) (entries : List FunctionEntry)
  | structs (path : String) (index : Nat) (entries : List StructEntry)

namespace Batch

variable (settings : Settings)

/-- The import path of the package. -/
def path : Batch → String
  | functions path _ _ => path
  | structs path _ _ => path

/-- The title of the section in the palette. -/
def title : Batch → String
  | functions path _ _ => ImportPath.guessedName path
  | structs path _ _ => s!"{ImportPath.guessedName path} types"

/-- The index of the package in the user's selection. -/
def index : Batch → Nat
  | functions _ index _ => index
  | structs _ index _ => index

/-- The hue of the package. -/
def hue : Batch → Nat
  | functions _ index _ => settings.functionHueAt index
  | structs _ index _ => settings.structHueAt index

/-- The hue that the settings give to the same part of the first package. -/
def firstHue : Batch → Nat
  | functions .. => settings.functionHue
  | structs .. => settings.structHue

/-- What becomes of the entries with a name. -/
def outcomes : Batch → List (Except Failure Candidate)
  | functions path index entries =>
    (entries.filter fun e => !Text.isBlankText e.name).map
      (·.candidate path (settings.functionHueAt index))
  | structs path index entries =>
    (entries.filter fun e => !Text.isBlankText e.name).map
      (·.candidate path (settings.structHueAt index))

end Batch

/-- The listings of the entries that are in order. -/
def Candidate.listings (outcomes : List (Except Failure Candidate)) : List Listing :=
  (outcomes.filterMap Except.toOption).map (·.listing)

/-- The names that the entries in order give to the package of a path, each with the path. -/
def Candidate.namings (path : String) (outcomes : List (Except Failure Candidate)) :
    List (String × String) :=
  (outcomes.filterMap Except.toOption).map fun candidate => (Text.trim path, candidate.package)

/-- What is told of entries: the types that those in order became, and what is wrong with the
others. -/
def Intake.ofOutcomes (outcomes : List (Except Failure Candidate)) : Intake where
  accepted := (Candidate.listings outcomes).map (·.blockType.id)
  refused := outcomes.filterMap fun
    | .ok _ => none
    | .error failure => some failure.message

namespace Batch

variable (settings : Settings) (b : Batch)

/-- The listings of a batch. -/
def listings : List Listing :=
  Candidate.listings (b.outcomes settings)

/-- The names that a batch gives to its package. -/
def namings : List (String × String) :=
  Candidate.namings b.path (b.outcomes settings)

/-- What is told of a batch. -/
def intake : Intake :=
  .ofOutcomes (b.outcomes settings)

/-- The section that a batch puts into the palette. -/
def paletteSection : PaletteSection :=
  ⟨b.title, b.hue settings, (b.intake settings).accepted⟩

end Batch

namespace Catalogue

/-! ### Writing to the parts of a catalogue -/

/-- Lists a type under its name. -/
def enlist (types : NameMap Listing) (listing : Listing) : NameMap Listing :=
  types.insert listing.blockType.id listing

/-- Adds to the names of a path. -/
def learn (names : NameMap NameSet) (naming : String × String) : NameMap NameSet :=
  names.change .empty naming.1 (·.insert naming.2)

theorem get?_enlist (types : NameMap Listing) (listing : Listing) (id : String) :
    (enlist types listing).get? id =
      if listing.blockType.id = id then some listing else types.get? id :=
  types.get?_insert _ id listing

theorem get?_foldl_enlist (types : NameMap Listing) (listings : List Listing) (id : String) :
    (listings.foldl enlist types).get? id =
      (listings.findRev? fun listing => listing.blockType.id = id).or (types.get? id) := by
  have last := lookup_foldl (fun id types => NameMap.get? types id) get?_enlist listings types id
  rwa [Option.map_id'] at last

theorem foldl_enlist_again (types : NameMap Listing) (listings : List Listing) :
    listings.foldl enlist (listings.foldl enlist types) = listings.foldl enlist types := by
  apply NameMap.ext_get?
  intro id
  rw [get?_foldl_enlist, get?_foldl_enlist, ← Option.or_assoc, Option.or_self]

/-- Names may be learned in any order. -/
instance : RightCommutative learn where
  right_comm names a b := by
    apply NameMap.change_comm
    intro known
    apply NameSet.ext_mem
    intro name
    simp only [NameSet.mem_insert]
    exact or_left_comm

theorem learn_again (names : NameMap NameSet) (naming : String × String) :
    learn (learn names naming) naming = learn names naming := by
  apply NameMap.change_change
  intro known
  apply NameSet.ext_mem
  intro name
  simp

/-- Learning names of one path adds them to what is known of the path, if there are any. -/
theorem get?_foldl_learn (names : NameMap NameSet) (path : String) (packages : List String)
    (other : String) :
    ((packages.map (path, ·)).foldl learn names).get? other =
      if path = other ∧ packages ≠ [] then
        some (((names.get? other).getD .empty).insertAll packages)
      else names.get? other := by
  induction packages generalizing names with
  | nil => simp
  | cons package rest ih =>
    rw [List.map_cons, List.foldl_cons, ih, learn, NameMap.get?_change]
    by_cases here : path = other
    · cases rest with
      | nil => simp [here, NameSet.insertAll]
      | cons second others => simp [here, NameSet.insertAll]
    · simp [here]

theorem foldl_takeEntry (path : String) (outcomes : List (Except Failure Candidate))
    (c : Catalogue) (intake : Intake) :
    outcomes.foldl (takeEntry path) (c, intake) =
      ({ c with
          types := (Candidate.listings outcomes).foldl enlist c.types
          knownNames := (Candidate.namings path outcomes).foldl learn c.knownNames },
        intake ++ Intake.ofOutcomes outcomes) := by
  induction outcomes generalizing c intake with
  | nil =>
    refine Prod.ext rfl ?_
    show intake = Intake.append intake {}
    simp [Intake.append]
  | cons outcome rest ih =>
    refine (ih _ _).trans (Prod.ext ?_ ?_)
    · cases outcome with
      | ok candidate => rfl
      | error failure => rfl
    · -- What is told of the first entry moves to the front of what is told of the others.
      cases outcome with
      | ok candidate =>
        exact congrArg (Intake.mk · _) (List.append_assoc _ [candidate.listing.blockType.id] _)
      | error failure =>
        exact congrArg (Intake.mk _ ·) (List.append_assoc _ [failure.message] _)

/-! ### Taking batches in -/

/-- Takes in a batch. -/
def takeBatch (c : Catalogue) (settings : Settings) : Batch → Catalogue × Intake
  | .functions path index entries => c.takeFunctions path index entries settings
  | .structs path index entries => c.takeStructs path index entries settings

theorem takeBatch_eq (c : Catalogue) (settings : Settings) (b : Batch) :
    c.takeBatch settings b =
      ({ types := (b.listings settings).foldl enlist c.types
         palette := (b.paletteSection settings).putInto c.palette
         knownNames := (b.namings settings).foldl learn c.knownNames },
        b.intake settings) := by
  have entries : c.takeBatch settings b =
      c.takeEntries b.path b.title (b.hue settings) (b.outcomes settings) := by
    cases b with
    | functions path index entries => rfl
    | structs path index entries => rfl
  rw [entries, takeEntries, foldl_takeEntry]
  rfl

theorem told_takeBatch (c : Catalogue) (settings : Settings) (b : Batch) :
    (c.takeBatch settings b).2 = b.intake settings := by
  rw [takeBatch_eq]

/-- Takes in batches, one after the other, and tells of each. -/
def takeBatches (c : Catalogue) (settings : Settings) : List Batch → Catalogue × List Intake
  | [] => (c, [])
  | b :: rest =>
    let (c, intake) := c.takeBatch settings b
    let (c, intakes) := c.takeBatches settings rest
    (c, intake :: intakes)

/-- Batches write to the parts of a catalogue, and to each of them on its own. -/
theorem takeBatches_eq (c : Catalogue) (settings : Settings) (batches : List Batch) :
    c.takeBatches settings batches =
      ({ types := (batches.flatMap (·.listings settings)).foldl enlist c.types
         palette := PaletteSection.putAll (batches.map (·.paletteSection settings)) c.palette
         knownNames := (batches.flatMap (·.namings settings)).foldl learn c.knownNames },
        batches.map (·.intake settings)) := by
  induction batches generalizing c with
  | nil => rfl
  | cons b rest ih =>
    rw [takeBatches, takeBatch_eq]
    simp only [ih, List.flatMap_cons, List.foldl_append, List.map_cons]
    rfl

/-- Batches that have been taken in change nothing when they are taken in again. -/
theorem takeBatches_again (c : Catalogue) (settings : Settings) (batches : List Batch) :
    (c.takeBatches settings batches).1.takeBatches settings batches =
      c.takeBatches settings batches := by
  simp only [takeBatches_eq, foldl_enlist_again, PaletteSection.putAll_putAll,
    foldl_foldl_self learn_again]

end Catalogue

end Blockwork
