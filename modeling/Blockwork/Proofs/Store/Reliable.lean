import Blockwork.Proofs.Block.Codec
import Blockwork.Proofs.Import.Selection
import Blockwork.Store.File
import Blockwork.Store.Page

/-!
# Stores that work

In a store that works a text is found under its key until another one is put there. A store in
memory always works, a store file does as long as its file can be written. What is kept in such
a store is found again: a selection (`Selection.kept_keep`) and a program that its own text gives
back (`Program.kept?_of_read`).
-/

namespace Blockwork

/-- Stores in which reading and writing succeed from then on once they work. -/
class ReliableStore (σ : Type) extends Store σ where
  /-- The store works. -/
  Works : σ → Prop
  works_write {store : σ} (works : Works store) (key text : String) :
    (write store key text).1 = .ok () ∧ Works (write store key text).2
  read_write {store : σ} (works : Works store) (key text other : String) :
    read (write store key text).2 other =
      if key = other then .ok (some text) else read store other
  /-- Reading answers. -/
  reads {store : σ} (works : Works store) (key : String) :
    ∃ text?, read store key = .ok text?

instance : ReliableStore Memory where
  Works _ := True
  works_write _ _ _ := ⟨rfl, trivial⟩
  read_write {store} _ key text other := by
    show Except.ok ((store.insert key text).get? other) = _
    rw [NameMap.get?_insert]
    split
    · rfl
    · rfl
  reads _ _ := ⟨_, rfl⟩

namespace StoreFile

/-- The file can be written. -/
def Writable (s : StoreFile) : Prop :=
  (s.disk.writable && s.disk.place ≠ .directory) = true

theorem put_of_writable {s : StoreFile} (writable : s.Writable) (key text : String) :
    (s.put key text).1 = .ok () ∧ (s.put key text).2.Writable ∧
      (s.put key text).2.entries = s.entries.insert key text := by
  unfold Writable at writable ⊢
  unfold put save Disk.write
  simp only [if_pos writable]
  refine ⟨trivial, ?_, trivial⟩
  rw [Bool.and_eq_true] at writable ⊢
  exact ⟨writable.1, rfl⟩

instance : ReliableStore StoreFile where
  Works := Writable
  works_write works key text :=
    ⟨(put_of_writable works key text).1, (put_of_writable works key text).2.1⟩
  read_write {store} works key text other := by
    show Except.ok ((store.put key text).2.entries.get? other) = _
    rw [(put_of_writable works key text).2.2, NameMap.get?_insert]
    split
    · rfl
    · rfl
  reads _ _ := ⟨_, rfl⟩

end StoreFile

variable {σ : Type} [ReliableStore σ] {store : σ}

/-! ### Selections -/

/-- A selection that is kept under a key is found there again. -/
theorem Selection.kept_keep (works : ReliableStore.Works store) {s : Selection}
    (written : s.IsWritten) (key : String) :
    Selection.kept (s.keep store key).2 key = .ok s := by
  have read : Store.read (s.keep store key).2 key = .ok (some s.toText) := by
    unfold Selection.keep
    rw [ReliableStore.read_write works, if_pos rfl]
  unfold Selection.kept
  rw [read]
  exact congrArg Except.ok (Selection.ofText_of_isWritten written)

/-- What is written under another key does not change the selection that is found. -/
theorem Selection.kept_write_of_ne (works : ReliableStore.Works store) {key other : String}
    (aside : other ≠ key) (text : String) :
    Selection.kept (Store.write store other text).2 key = Selection.kept store key := by
  unfold Selection.kept
  rw [ReliableStore.read_write works, if_neg aside]

/-! ### Programs -/

/-- The program is the one that its own text gives back: what its maps hold is in order, its
numbers are finite and read back from their spelling, and its document nests no deeper than
documents may. -/
structure Program.Storable (p : Program) : Prop where
  ordered : Block.OrderedSequence p.blocks
  finite : ∀ x ∈ p.numbers, x.isFinite = true
  faithful : ∀ x ∈ p.numbers, x.ReadsBack
  shallow : p.toJson.depth ≤ Json.maxDepth

theorem Program.Storable.ofText_eq {p : Program} (storable : p.Storable) :
    Program.ofText p.toText = .ok p := by
  have fits := (p.read?_toJson storable.ordered (fun x mem _ => storable.faithful x mem)
    Json.maxDepth).1 ⟨storable.finite, storable.shallow⟩
  have document : Json.parse? p.toText = some p.toJson := Json.parse?_compact p.proper_toJson
  unfold Program.ofText
  rw [document, Option.bind_some, fits]

/-- Where the text of a storable program is kept for a page, that program is found; where
nothing is kept, none is. -/
theorem Program.kept?_of_read {address : String} {page? : Option Program}
    (storable : ∀ p ∈ page?, p.Storable)
    (read : Store.read store (pageKey address) = .ok (page?.map Program.toText)) :
    Program.kept? store address = .ok page? := by
  unfold Program.kept?
  rw [read]
  cases page? with
  | none => rfl
  | some p =>
    simp only [Option.map_some, bind, Except.bind, (storable p rfl).ofText_eq, Except.map]

end Blockwork
