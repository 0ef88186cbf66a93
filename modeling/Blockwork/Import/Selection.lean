import Blockwork.Collection.Distinct
import Blockwork.Failure
import Blockwork.Import.Path

/-!
# The user's selection of packages

The import paths that a user has chosen, in the order in which they were chosen. Its text joins
the paths by commas, which no import path holds; what a text holds beside paths is dropped when
it is read.
-/

namespace Blockwork

/-- The chosen import paths, none of them twice. -/
structure Selection where
  paths : List String := []
  nodup : paths.Nodup := by exact List.nodup_nil

namespace Selection

instance : DecidableEq Selection := fun a b =>
  if h : a.paths = b.paths then isTrue (by cases a; cases b; simp_all)
  else isFalse fun same => h (congrArg paths same)

instance : Inhabited Selection := ⟨{}⟩

instance : Membership String Selection := ⟨fun s path => path ∈ s.paths⟩

instance (path : String) (s : Selection) : Decidable (path ∈ s) :=
  inferInstanceAs (Decidable (path ∈ s.paths))

/-- Appends a path, unless it is there. -/
def append (s : Selection) (path : String) : Selection :=
  ⟨addNew s.paths path, nodup_addNew s.nodup path⟩

/-- The pieces of a text between its commas, without blanks around them and without empty
ones. -/
def piecesOf (text : String) : List String :=
  ((Text.cut ',' text.toList).map fun piece =>
    String.ofList (Text.trimWhere Text.isBlank piece)).filter fun path => !path.isEmpty

/-- Reads the text of a selection. -/
def ofText (text : String) : Selection :=
  (piecesOf text).foldl append {}

/-- The text of a selection. -/
def toText (s : Selection) : String :=
  Text.joinWith "," s.paths

/-- Chooses a path, without the blanks around it, and tells whether it is new. -/
def choose (s : Selection) (path : String) : Except Failure (Bool × Selection) :=
  let path := Text.trim path
  if !ImportPath.isWellFormed path then .error (.badPath path)
  else .ok (decide (path ∉ s), s.append path)

/-- Gives a path up, without the blanks around it, and tells whether it was chosen. -/
def giveUp (s : Selection) (path : String) : Bool × Selection :=
  let path := Text.trim path
  (decide (path ∈ s), ⟨s.paths.filter (· ≠ path), s.nodup.filter _⟩)

/-- The place of a path in the selection; the place behind the last one when it is not in it. -/
def indexOf (s : Selection) (path : String) : Nat :=
  s.paths.idxOf path

@[simp] theorem paths_append (s : Selection) (path : String) :
    (s.append path).paths = addNew s.paths path := rfl

theorem paths_foldl_append (s : Selection) (paths : List String) :
    (paths.foldl append s).paths = appendNew s.paths paths := by
  induction paths generalizing s with
  | nil => rfl
  | cons path rest ih => rw [List.foldl_cons, ih, paths_append, appendNew_cons]

end Selection

end Blockwork
