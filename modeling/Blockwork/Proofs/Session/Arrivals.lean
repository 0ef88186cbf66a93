import Blockwork.Proofs.Catalogue.Batches
import Blockwork.Session.Packages

/-!
# What arrives of packages

A session gets the parts of packages one by one, as texts or from a source. What arrives of a part
is a batch, or a failure where there is no text or none that can be read (`Arrival`). Either way
the progress with the package is recorded, and a batch goes into the catalogue (`Session.receive`).
All ways of taking packages in are runs of `receive`: `takeFunctions_eq`, `takeStructs_eq`,
`takeAll_eq`. Such a run writes to the progress and to the catalogue, and to each of them on its
own (`foldl_receive`).
-/

namespace Blockwork

/-- The parts of a package, each of which is listed by a text of its own. -/
inductive PackagePart where
  | functions
  | structs
deriving DecidableEq

namespace Progress

/-- Whether a part of the package has been taken in. -/
def has (p : Progress) : PackagePart → Bool
  | .functions => p.functions
  | .structs => p.structs

/-- The progress after a part of the package has been taken in. -/
def record (p : Progress) : PackagePart → Progress
  | .functions => { p with functions := true }
  | .structs => { p with structs := true }

theorem has_record (p : Progress) (part other : PackagePart) :
    (p.record part).has other = (decide (part = other) || p.has other) := by
  cases part <;> cases other <;> rfl

theorem eq_of_has {p q : Progress} (same : ∀ part, p.has part = q.has part) : p = q := by
  have functions : p.functions = q.functions := same .functions
  have structs : p.structs = q.structs := same .structs
  cases p
  cases q
  congr

end Progress

/-! ### Arrivals -/

/-- What arrives of a part of a package: a batch, or the reason why there is none. -/
structure Arrival where
  part : PackagePart
  path : String
  batch : Except Failure Batch

namespace Arrival

/-- What is told of an arrival. -/
def intake (settings : Settings) (a : Arrival) : Intake :=
  Session.intakeOf a.path (a.batch.map (·.intake settings))

/-- Records an arrival as progress. -/
def recordIn (progress : NameMap Progress) (a : Arrival) : NameMap Progress :=
  progress.change {} a.path (·.record a.part)

/-- The batches among arrivals. -/
def batches (arrivals : List Arrival) : List Batch :=
  arrivals.filterMap (·.batch.toOption)

/-- Arrivals may be recorded in any order. -/
instance : RightCommutative recordIn where
  right_comm progress a b := by
    apply NameMap.change_comm
    intro p
    apply Progress.eq_of_has
    intro part
    simp only [Progress.has_record, Bool.or_left_comm]

theorem recordIn_again (progress : NameMap Progress) (a : Arrival) :
    recordIn (recordIn progress a) a = recordIn progress a := by
  apply NameMap.change_change
  intro p
  apply Progress.eq_of_has
  intro part
  simp only [Progress.has_record, ← Bool.or_assoc, Bool.or_self]

end Arrival

namespace Selection

variable (selection : Selection)

/-- The batch in a text that lists a part of a package. -/
def batchOf (path text : String) : PackagePart → Except Failure Batch
  | .functions =>
    (FunctionEntry.readAll text).map (Batch.functions path (selection.indexOf path))
  | .structs => (StructEntry.readAll text).map (Batch.structs path (selection.indexOf path))

/-- What arrives of a part of a package with a text, or with a failure in its place. -/
def arrival (part : PackagePart) (path : String) (text : Except Failure String) : Arrival :=
  ⟨part, path, text.bind fun text => selection.batchOf path text part⟩

/-- What arrives of a package from a source. -/
def arrivalsOf (source : EntrySource) (path : String) : List Arrival :=
  [selection.arrival .functions path (source.functions path),
    selection.arrival .structs path (source.structs path)]

/-- What arrives of the selection from a source, in the order in which it is taken in. -/
def arrivals (source : EntrySource) : List Arrival :=
  selection.paths.flatMap (selection.arrivalsOf source)

variable {selection} {b : Batch}

theorem path_of_arrival {part : PackagePart} {path : String} {text : Except Failure String}
    (arrives : (selection.arrival part path text).batch.toOption = some b) : b.path = path := by
  unfold arrival batchOf at arrives
  cases text with
  | error failure => exact nomatch arrives
  | ok text =>
    cases part with
    | functions =>
      change ((FunctionEntry.readAll text).map _).toOption = some b at arrives
      generalize FunctionEntry.readAll text = read at arrives
      cases read with
      | error failure => exact nomatch arrives
      | ok entries =>
        cases arrives
        rfl
    | structs =>
      change ((StructEntry.readAll text).map _).toOption = some b at arrives
      generalize StructEntry.readAll text = read at arrives
      cases read with
      | error failure => exact nomatch arrives
      | ok entries =>
        cases arrives
        rfl

/-- The batches that arrive of a selection are of its paths. -/
theorem path_mem_of_arrives {source : EntrySource}
    (arrives : b ∈ Arrival.batches (selection.arrivals source)) : b.path ∈ selection.paths := by
  obtain ⟨a, mem, read⟩ := List.mem_filterMap.mp arrives
  obtain ⟨path, chosen, mem⟩ := List.mem_flatMap.mp mem
  have same : b.path = path := by
    rcases List.mem_pair.mp mem with rfl | rfl
    · exact path_of_arrival read
    · exact path_of_arrival read
  exact same ▸ chosen

end Selection

/-! ### Taking in -/

namespace Session

/-- Takes in what arrives of a part of a package. -/
def receive (s : Session) (a : Arrival) : Session :=
  { s with
    progress := a.recordIn s.progress
    catalogue :=
      match a.batch with
      | .ok batch => (s.catalogue.takeBatch s.settings batch).1
      | .error _ => s.catalogue }

/-- Taking in a text that lists functions. -/
theorem takeFunctions_eq (s : Session) (path text : String) :
    s.takeFunctions path text =
      let a := s.selection.arrival .functions path (.ok text)
      (a.batch.map (·.intake s.settings), s.receive a) := by
  unfold takeFunctions
  simp only [Selection.arrival, Selection.batchOf, Except.bind]
  cases FunctionEntry.readAll text with
  | error failure => rfl
  | ok entries =>
    have told := s.catalogue.told_takeBatch s.settings
      (.functions path (s.selection.indexOf path) entries)
    exact Prod.ext (congrArg Except.ok told) rfl

/-- Taking in a text that lists structs. -/
theorem takeStructs_eq (s : Session) (path text : String) :
    s.takeStructs path text =
      let a := s.selection.arrival .structs path (.ok text)
      (a.batch.map (·.intake s.settings), s.receive a) := by
  unfold takeStructs
  simp only [Selection.arrival, Selection.batchOf, Except.bind]
  cases StructEntry.readAll text with
  | error failure => rfl
  | ok entries =>
    have told := s.catalogue.told_takeBatch s.settings
      (.structs path (s.selection.indexOf path) entries)
    exact Prod.ext (congrArg Except.ok told) rfl

theorem takeFunctionsFrom_eq (source : EntrySource) (s : Session) (path : String) :
    takeFunctionsFrom source s path =
      let a := s.selection.arrival .functions path (source.functions path)
      (a.intake s.settings, s.receive a) := by
  unfold takeFunctionsFrom
  cases source.functions path with
  | error failure => rfl
  | ok text =>
    simp only [takeFunctions_eq]
    rfl

theorem takeStructsFrom_eq (source : EntrySource) (s : Session) (path : String) :
    takeStructsFrom source s path =
      let a := s.selection.arrival .structs path (source.structs path)
      (a.intake s.settings, s.receive a) := by
  unfold takeStructsFrom
  cases source.structs path with
  | error failure => rfl
  | ok text =>
    simp only [takeStructs_eq]
    rfl

theorem takePackage_eq (source : EntrySource) (told : Intake) (s : Session) (path : String) :
    takePackage source (told, s) path =
      let arrivals := s.selection.arrivalsOf source path
      (arrivals.foldl (fun told a => told ++ a.intake s.settings) told,
        arrivals.foldl receive s) := by
  unfold takePackage
  simp only [takeFunctionsFrom_eq, takeStructsFrom_eq]
  rfl

theorem foldl_takePackage (source : EntrySource) (paths : List String) (told : Intake)
    (s : Session) :
    paths.foldl (takePackage source) (told, s) =
      let arrivals := paths.flatMap (s.selection.arrivalsOf source)
      (arrivals.foldl (fun told a => told ++ a.intake s.settings) told,
        arrivals.foldl receive s) := by
  induction paths generalizing told s with
  | nil => rfl
  | cons path rest ih =>
    rw [List.foldl_cons, takePackage_eq, ih]
    simp only [List.flatMap_cons, List.foldl_append]
    rfl

/-- Taking in the selection receives what arrives of it. -/
theorem takeAll_eq (s : Session) (source : EntrySource) :
    s.takeAll source =
      let arrivals := s.selection.arrivals source
      (arrivals.foldl (fun told a => told ++ a.intake s.settings) {}, arrivals.foldl receive s) :=
  foldl_takePackage source s.selection.paths {} s

/-- Arrivals write to the progress and to the catalogue, and to each of them on its own. -/
theorem foldl_receive (s : Session) (arrivals : List Arrival) :
    arrivals.foldl receive s =
      { s with
        progress := arrivals.foldl Arrival.recordIn s.progress
        catalogue := (s.catalogue.takeBatches s.settings (Arrival.batches arrivals)).1 } := by
  induction arrivals generalizing s with
  | nil => rfl
  | cons a rest ih =>
    rw [List.foldl_cons, ih]
    obtain ⟨part, path, batch⟩ := a
    cases batch with
    | error failure => rfl
    | ok batch => rfl

end Session

end Blockwork
