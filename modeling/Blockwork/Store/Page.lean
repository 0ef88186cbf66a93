import Blockwork.Block.Codec
import Blockwork.Import.Selection
import Blockwork.Store.Basic

/-!
# What stores keep

A store keeps the user's selection of packages under a key of its own, and the program of each
page under the page's address. Addresses that differ only behind a `#` are one page.
-/

namespace Blockwork

variable {σ : Type} [Store σ]

/-- The key of a page: its address up to the first `#`. -/
def pageKey (address : String) : String :=
  String.ofList (address.toList.takeWhile (· ≠ '#'))

/-- Keeps a program for a page. -/
def Program.keep (p : Program) (store : σ) (address : String) : Except Failure Unit × σ :=
  Store.write store (pageKey address) p.toText

/-- The program that a store keeps for a page. -/
def Program.kept? (store : σ) (address : String) : Except Failure (Option Program) := do
  match ← Store.read store (pageKey address) with
  | some text => (Program.ofText text).map some
  | none => .ok none

/-- Keeps a selection under a key. -/
def Selection.keep (s : Selection) (store : σ) (key : String) : Except Failure Unit × σ :=
  Store.write store key s.toText

/-- The selection that a store keeps under a key; without one it is empty. -/
def Selection.kept (store : σ) (key : String) : Except Failure Selection := do
  match ← Store.read store key with
  | some text => .ok (.ofText text)
  | none => .ok {}

end Blockwork
