import Blockwork.Import.Needed
import Blockwork.Package.Entry
import Blockwork.Package.Intake
import Blockwork.Session.Basic

/-!
# The packages of a session

The user chooses packages and gives them up again, and a store keeps the selection. The entries
of the chosen packages are taken in from an `EntrySource`, a package at a time; what goes wrong
with one of them is told in the `Intake` and does not stop the others.
-/

namespace Blockwork.Session

/-! ### The selection -/

/-- Keeps the selection in a store. -/
def keepSelection {σ : Type} [Store σ] (s : Session) (store : σ) : Except Failure Unit × σ :=
  s.selection.keep store s.settings.selectionKey

/-- Chooses a package, keeps the selection if the package is new to it, and tells whether it
is. -/
def choose {σ : Type} [Store σ] (s : Session) (path : String) (store : σ) :
    Except Failure Bool × Session × σ :=
  match s.selection.choose path with
  | .error failure => (.error failure, s, store)
  | .ok (false, _) => (.ok false, s, store)
  | .ok (true, selection) =>
    -- The path stays chosen when the store fails.
    let s := { s with selection }
    let (outcome, store) := s.keepSelection store
    (outcome.map fun _ => true, s, store)

/-- Gives a package up, keeps the selection if the package was in it, and tells whether it was.
The block types of the package stay in the catalogue. -/
def giveUp {σ : Type} [Store σ] (s : Session) (path : String) (store : σ) :
    Except Failure Bool × Session × σ :=
  match s.selection.giveUp path with
  | (false, _) => (.ok false, s, store)
  | (true, selection) =>
    let s := { s with selection, progress := s.progress.erase (Text.trim path) }
    let (outcome, store) := s.keepSelection store
    (outcome.map fun _ => true, s, store)

/-- The import paths that are available to entry points: the standard ones, then the chosen
ones. -/
def available (s : Session) : List String :=
  appendNew standardPackages s.selection.paths

/-! ### Progress -/

/-- What has been taken in of a package. -/
def progressOf (s : Session) (path : String) : Progress :=
  (s.progress.get? path).getD {}

/-- Records progress with a package. -/
def advance (s : Session) (path : String) (step : Progress → Progress) : Session :=
  { s with progress := s.progress.insert path (step (s.progressOf path)) }

/-- Whether all of every chosen package has been taken in. -/
def ready (s : Session) : Bool :=
  s.selection.paths.all fun path => (s.progressOf path).finished

/-! ### Entries -/

/-- Takes in a text that lists functions of a package. -/
def takeFunctions (s : Session) (path text : String) : Except Failure Intake × Session :=
  -- A text that cannot be read counts as taken in: there is nothing more to wait for.
  let s := s.advance path fun p => { p with functions := true }
  match FunctionEntry.readAll text with
  | .error failure => (.error failure, s)
  | .ok entries =>
    let (catalogue, intake) :=
      s.catalogue.takeFunctions path (s.selection.indexOf path) entries s.settings
    (.ok intake, { s with catalogue })

/-- Takes in a text that lists structs of a package. -/
def takeStructs (s : Session) (path text : String) : Except Failure Intake × Session :=
  let s := s.advance path fun p => { p with structs := true }
  match StructEntry.readAll text with
  | .error failure => (.error failure, s)
  | .ok entries =>
    let (catalogue, intake) :=
      s.catalogue.takeStructs path (s.selection.indexOf path) entries s.settings
    (.ok intake, { s with catalogue })

/-- The intake of a text of a package that may have failed as a whole. -/
def intakeOf (path : String) : Except Failure Intake → Intake
  | .ok intake => intake
  | .error failure => { refused := [s!"{path}: {failure.message}"] }

/-- Takes in the functions of a package from a source. -/
def takeFunctionsFrom (source : EntrySource) (s : Session) (path : String) : Intake × Session :=
  match source.functions path with
  | .ok text =>
    let (outcome, s) := s.takeFunctions path text
    (intakeOf path outcome, s)
  | .error failure =>
    (intakeOf path (.error failure), s.advance path fun p => { p with functions := true })

/-- Takes in the structs of a package from a source. -/
def takeStructsFrom (source : EntrySource) (s : Session) (path : String) : Intake × Session :=
  match source.structs path with
  | .ok text =>
    let (outcome, s) := s.takeStructs path text
    (intakeOf path outcome, s)
  | .error failure =>
    (intakeOf path (.error failure), s.advance path fun p => { p with structs := true })

/-- Takes in a package from a source, behind what was taken in before. -/
def takePackage (source : EntrySource) (state : Intake × Session) (path : String) :
    Intake × Session :=
  let (functions, s) := takeFunctionsFrom source state.2 path
  let (structs, s) := takeStructsFrom source s path
  (state.1 ++ functions ++ structs, s)

/-- Takes in every chosen package from a source, in the order of the selection. -/
def takeAll (s : Session) (source : EntrySource) : Intake × Session :=
  s.selection.paths.foldl (takePackage source) ({}, s)

end Blockwork.Session
