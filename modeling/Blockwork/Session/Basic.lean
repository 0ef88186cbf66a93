import Blockwork.Block.Program
import Blockwork.Catalogue
import Blockwork.Import.Selection
import Blockwork.Settings
import Blockwork.Store.Page

/-!
# Sessions

What one session of the editor owns: its settings, the block types, the user's selection of
packages, what has been taken in of each package, and the current program.
-/

namespace Blockwork

/-- What has been taken in of a package, with success or without. -/
structure Progress where
  functions : Bool := false
  structs : Bool := false
deriving DecidableEq, Inhabited

/-- Whether all of the package has been taken in. -/
def Progress.finished (p : Progress) : Bool :=
  p.functions && p.structs

/-- A session of the editor. -/
structure Session where
  settings : Settings := {}
  catalogue : Catalogue := .ofBuiltins
  selection : Selection := {}
  progress : NameMap Progress := {}
  program : Program := {}

namespace Session

instance : Inhabited Session := ⟨{}⟩

/-- A new session that starts with the selection which a store keeps. -/
def start {σ : Type} [Store σ] (settings : Settings) (store : σ) : Except Failure Session :=
  (Selection.kept store settings.selectionKey).map fun selection => { settings, selection }

end Session

end Blockwork
