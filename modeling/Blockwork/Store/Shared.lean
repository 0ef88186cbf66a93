import Blockwork.Collection.NameMap
import Blockwork.Failure

/-!
# Shared programs

Where programs are put for others to have: a text that is submitted gets a key, and whoever has
the key can fetch the text. `Shelf` is such a place in memory; its keys count up.
-/

namespace Blockwork

/-- Places for shared programs, with states of type `σ`. -/
class SharedPrograms (σ : Type) where
  /-- Puts a text there and answers with its key. -/
  submit : σ → String → Except Failure String × σ
  /-- The text under a key. -/
  fetch : σ → String → Except Failure String × σ

/-- A place in memory. -/
structure Shelf where
  texts : NameMap String := {}
deriving DecidableEq, Inhabited

namespace Shelf

/-- Puts a text under a given key. -/
def put (s : Shelf) (key text : String) : Shelf :=
  ⟨s.texts.insert key text⟩

/-- The key of the next text: the number of texts so far, behind a `k`. -/
def nextKey (s : Shelf) : String :=
  s!"k{s.texts.size}"

/-- The text under a key. -/
def get (s : Shelf) (key : String) : Except Failure String :=
  match s.texts.get? key with
  | some text => .ok text
  | none => .error (.noSuchKey key)

end Shelf

instance : SharedPrograms Shelf where
  submit s text := (.ok s.nextKey, s.put s.nextKey text)
  fetch s key := (s.get key, s)

end Blockwork
