import Mathlib.Control.Monad.Basic
import Blockwork.Proofs.Json.Pretty
import Blockwork.Store.File

/-!
# Store files answer like memory

The entries that a store file holds in memory are those that its file gives when it is opened
again. This is so when the store is opened, and it stays so as long as the file can be written
(`StoreFile.Synced.operate`). So a run of operations, with reopening at any place in it, has the
same answers as the same run on a store in memory (`StoreFile.answers_like_memory`).
-/

namespace Blockwork

/-! ### The text of the file -/

/-- A map is put together again from its entries. -/
theorem NameMap.ofList_entries {α : Type} (m : NameMap α) : ofList m.entries = m := by
  cases m with
  | mk entries ascending =>
    unfold ofList
    congr
    exact Entries.ofList_of_ascending ascending

/-- Taking away what is not there changes nothing. -/
theorem NameMap.erase_of_not_contains {α : Type} {m : NameMap α} {name : String}
    (absent : m.contains name = false) : m.erase name = m := by
  refine ext_get? ?_
  intro key
  rw [get?_erase]
  split
  · rename_i same
    subst same
    exact (Option.not_isSome_iff_eq_none.mp (Bool.not_eq_true _ ▸ absent)).symm
  · rfl

namespace StoreFile

theorem mapM_textMembers (entries : List (String × String)) :
    ((Json.textMembers entries).mapM fun member =>
      member.2.text?.map fun value => (member.1, value)) = some entries := by
  induction entries with
  | nil => rfl
  | cons entry rest ih =>
    rw [Json.textMembers, List.map_cons, List.mapM_cons]
    unfold Json.textMembers at ih
    rw [ih]
    rfl

/-- The text of a file gives back the entries that it was written for. -/
theorem ofFileText_fileText (entries : NameMap String) :
    ofFileText (fileText entries) = .ok entries := by
  have document : Json.parse? (fileText entries) =
      some (.object (Json.textMembers entries.entries)) :=
    Json.parse?_pretty_texts entries.entries
  unfold ofFileText
  simp only [document, Option.bind_some, Json.members?, mapM_textMembers, NameMap.ofList_entries]

/-! ### The file and the entries in memory -/

/-- Opening the file again gives the entries that are in memory. -/
def Synced (s : StoreFile) : Prop :=
  s.reopened = .ok s

theorem synced_of_ofDisk {disk : Disk} {s : StoreFile} (opened : ofDisk disk = .ok s) :
    s.Synced := by
  have here : s.disk = disk := by
    unfold ofDisk at opened
    cases place : disk.place with
    | vacant =>
      rw [place] at opened
      rw [← Except.ok.inj opened]
    | directory =>
      rw [place] at opened
      exact nomatch opened
    | file text =>
      simp only [place] at opened
      cases read : ofFileText text with
      | error failure =>
        rw [read] at opened
        exact nomatch opened
      | ok entries =>
        rw [read] at opened
        rw [← Except.ok.inj opened]
  unfold Synced reopened
  rw [here, opened]

theorem save_eq (s : StoreFile) :
    s.save = if s.disk.writable && s.disk.place ≠ .directory then
      (.ok (), { s with disk := { s.disk with place := .file (fileText s.entries) } })
    else (.error .badFile, s) := by
  unfold save Disk.write
  by_cases writes : (s.disk.writable && s.disk.place ≠ .directory) = true
  · simp only [if_pos writes]
  · simp only [if_neg writes]

/-- When the file can be written, it then holds the entries in memory. -/
theorem save_of_works {s : StoreFile} (works : s.save.1 ≠ .error .badFile) :
    s.save.1 = .ok () ∧ s.save.2.Synced ∧ s.save.2.entries = s.entries := by
  rw [save_eq] at works ⊢
  split
  · refine ⟨rfl, ?_, rfl⟩
    show (ofFileText (fileText s.entries)).map _ = _
    rw [ofFileText_fileText]
    rfl
  · rename_i off
    rw [if_neg off] at works
    exact absurd rfl works

/-! ### Operations -/

open Store (operate answers)

/-- An operation that works leaves the file in step with the entries in memory, and does to the
entries what it does to a store in memory. -/
theorem Synced.operate {s : StoreFile} (synced : s.Synced) (operation : StoreOperation)
    (works : (operate reopened s operation).1 ≠ .error .badFile) :
    (operate reopened s operation).1 = (operate (σ := Memory) .ok s.entries operation).1 ∧
      (operate reopened s operation).2.Synced ∧
      (operate reopened s operation).2.entries =
        (operate (σ := Memory) .ok s.entries operation).2 := by
  -- Writing and erasing answer with nothing but their success.
  have told : ∀ outcome : Except Failure Unit,
      outcome.map (fun _ => (none : Option String)) ≠ .error .badFile →
        outcome ≠ .error .badFile := by
    rintro _ works rfl
    exact works rfl
  cases operation with
  | read key => exact ⟨rfl, synced, rfl⟩
  | write key text =>
    obtain ⟨done, kept, same⟩ :=
      save_of_works (s := { s with entries := s.entries.insert key text }) (told _ works)
    exact ⟨congrArg (Except.map _) done, kept, same⟩
  | erase key =>
    have erased : Store.erase s key = s.erase key := rfl
    simp only [Store.operate, erased] at works ⊢
    unfold StoreFile.erase at works ⊢
    by_cases there : s.entries.contains key = true
    · rw [if_pos there] at works ⊢
      obtain ⟨done, kept, same⟩ :=
        save_of_works (s := { s with entries := s.entries.erase key }) (told _ works)
      exact ⟨congrArg (Except.map _) done, kept, same⟩
    · rw [if_neg there]
      exact ⟨rfl, synced, (NameMap.erase_of_not_contains (Bool.eq_false_iff.mpr there)).symm⟩
  | reopen =>
    have again : s.reopened = .ok s := synced
    simp only [Store.operate, again]
    exact ⟨trivial, synced, trivial⟩

/-- **A store file answers like memory.** Let a store file be opened at any place on a disk, and
let operations on it work as far as the disk is concerned, reopening included. Then they have the
same answers as on a store in memory that starts with the same entries and stays open. -/
theorem answers_like_memory {disk : Disk} {s : StoreFile} (opened : ofDisk disk = .ok s)
    (operations : List StoreOperation)
    (works : ∀ answer ∈ answers reopened s operations, answer ≠ .error .badFile) :
    answers reopened s operations = answers (σ := Memory) .ok s.entries operations := by
  have synced := synced_of_ofDisk opened
  clear opened
  induction operations generalizing s with
  | nil => rfl
  | cons operation rest ih =>
    rw [Store.answers_cons] at works
    obtain ⟨answered, kept, entries⟩ := synced.operate operation (works _ List.mem_cons_self)
    have later := ih (fun answer mem => works answer (List.mem_cons_of_mem _ mem)) kept
    rw [Store.answers_cons, Store.answers_cons, answered, later, entries]

/-- A file that was not written by the store, and a text that needs escapes. -/
theorem answers_like_memory_of_written :
    let s : StoreFile :=
      { disk := { place := .file "\x7b \"b\" : \"2\", \"a\":\"1\" \x7d" }
        entries := .ofList [("a", "1"), ("b", "2")] }
    answers reopened s
        [.erase "c", .reopen, .write "c\n" "\"\x01", .erase "a", .reopen, .read "c\n", .read "a"] =
      [.ok none, .ok none, .ok none, .ok none, .ok none, .ok (some "\"\x01"), .ok none] := by
  intro s
  have opened : ofDisk s.disk = .ok s := by decide +kernel
  refine (answers_like_memory opened _ ?_).trans (by decide +kernel)
  decide +kernel

end StoreFile

end Blockwork
