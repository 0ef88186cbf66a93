import Blockwork.Collection.Distinct
import Blockwork.Collection.NameMap
import Blockwork.Collection.NameSet
import Blockwork.Import.Path
import Blockwork.Source.Literal

/-!
# The imports of a source file

Some import paths are *available*: code may refer to their packages, and entry points import
those that it does refer to. `needed` picks them. An `ImportList` collects the paths that a file
imports, in the order in which they first turned up, and `declaration` writes them down.
-/

namespace Blockwork

/-- The paths that are available in every session: those of the packages that the built-in
blocks refer to. -/
def standardPackages : List String :=
  ["context", "log", "os", "os/signal", "time", "strings"]

namespace ImportPath

/-- The names under which code may refer to the package of a path: those known for it, or else
the name that the path suggests. -/
def namesOf (known : NameMap NameSet) (path : String) : List String :=
  match known.get? path with
  | some names => if names.isEmpty then [guessedName path] else names.members
  | none => [guessedName path]

/-- The available paths, in their order, with a name among the packages in use or among those
that are always needed. -/
def needed (available : List String) (used : NameSet) (always : List String)
    (known : NameMap NameSet) : List String :=
  appendNew [] <| available.filter fun path =>
    (namesOf known path).any fun name => name ∈ used || name ∈ always

theorem mem_needed {available always : List String} {used : NameSet} {known : NameMap NameSet}
    {path : String} :
    path ∈ needed available used always known ↔
      path ∈ available ∧ ∃ name ∈ namesOf known path, name ∈ used ∨ name ∈ always := by
  simp [needed, mem_appendNew]

end ImportPath

/-- The import paths of a file, in the order in which they first turned up. -/
structure ImportList where
  paths : List String := []
  nodup : paths.Nodup := by exact List.nodup_nil
deriving DecidableEq

namespace ImportList

instance : Inhabited ImportList := ⟨{}⟩

instance : Membership String ImportList := ⟨fun l path => path ∈ l.paths⟩

instance (path : String) (l : ImportList) : Decidable (path ∈ l) :=
  inferInstanceAs (Decidable (path ∈ l.paths))

/-- Adds a path, unless it is there. -/
def add (l : ImportList) (path : String) : ImportList :=
  ⟨addNew l.paths path, nodup_addNew l.nodup path⟩

/-- Adds every path of a list. -/
def addAll (l : ImportList) (paths : List String) : ImportList :=
  ⟨appendNew l.paths paths, nodup_appendNew l.nodup paths⟩

@[simp] theorem paths_addAll (l : ImportList) (paths : List String) :
    (l.addAll paths).paths = appendNew l.paths paths := rfl

/-- A way to put paths on a list. -/
inductive Call where
  | add (path : String)
  | addAll (paths : List String)

/-- The paths that a call puts on a list. -/
def Call.paths : Call → List String
  | add path => [path]
  | addAll paths => paths

/-- Answers a call: for a single path, whether it is new. -/
def call (l : ImportList) : Call → Option Bool × ImportList
  | .add path => (some (decide (path ∉ l)), l.add path)
  | .addAll paths => (none, l.addAll paths)

/-- The list that calls leave, one after the other. -/
def callAll (l : ImportList) (calls : List Call) : ImportList :=
  calls.foldl (fun l call => (l.call call).2) l

/-- The import declaration: nothing without paths, one line for a single path, and otherwise
a list in parentheses with a path on each line. -/
def declaration (l : ImportList) (indent : String) : String :=
  match l.paths with
  | [] => ""
  | [path] => s!"import {Source.quote path}\n"
  | paths =>
    "import (\n" ++ String.join (paths.map fun path => s!"{indent}{Source.quote path}\n") ++ ")\n"

end ImportList

end Blockwork
