import Blockwork.Proofs.Store.File

/-!
# Changes that fail

A store file changes its entries in memory before it writes them to its file. When the file cannot
be written the change fails, and stays in memory all the same: from then on it is answered for, and
the next write that works brings it to the file (`StoreFile.failed_changes_stay`).

The disk may be anything at any moment, so every operation of a run comes with the disk that it
finds (`StoreFile.Attempt`). A `StoreFile.Ledger` tells from the answers what the file was given
last and what has failed since. The entries in memory are those of the file with the failed changes
made, in their order.
-/

namespace Blockwork

namespace StoreOperation

/-- The entries that the operation makes of others when nothing fails. Opening leaves them to the
file. -/
def apply (entries : NameMap String) : StoreOperation → NameMap String
  | write key text => entries.insert key text
  | erase key => entries.erase key
  | read _ | reopen => entries

/-- Whether a store with these entries has to write its file for the operation. -/
def writes (entries : NameMap String) : StoreOperation → Bool
  | write _ _ => true
  | erase key => entries.contains key
  | read _ | reopen => false

end StoreOperation

namespace StoreFile

/-! ### Operations on a disk that changes -/

/-- An operation, and the disk that it finds. -/
structure Attempt where
  operation : StoreOperation
  disk : Disk := {}

/-- Carries out an operation on the disk that it finds. -/
def attempt (s : StoreFile) (a : Attempt) : Except Failure (Option String) × StoreFile :=
  Store.operate reopened { s with disk := a.disk } a.operation

/-- The store after attempts, one after the other. -/
def attemptAll (s : StoreFile) (run : List Attempt) : StoreFile :=
  run.foldl (fun s a => (s.attempt a).2) s

variable {s : StoreFile} {a : Attempt} {failure : Failure}

/-- An operation that has the file written is made in memory, and then the store is saved. -/
theorem attempt_of_writes (writes : a.operation.writes s.entries = true) :
    let saved := save { disk := a.disk, entries := a.operation.apply s.entries }
    s.attempt a = (saved.1.map fun _ => none, saved.2) := by
  obtain ⟨operation, disk⟩ := a
  cases operation with
  | read key => exact nomatch writes
  | reopen => exact nomatch writes
  | write key text => rfl
  | erase key =>
    show Store.operate reopened { s with disk } (.erase key) = _
    have there : ({ s with disk } : StoreFile).entries.contains key = true := writes
    have erased : Store.erase ({ s with disk } : StoreFile) key =
        save { disk, entries := s.entries.erase key } := if_pos there
    simp only [Store.operate, erased]
    rfl

/-- Any other operation but opening works and changes no entry. -/
theorem attempt_of_idle (idle : a.operation.writes s.entries = false)
    (stays : a.operation ≠ .reopen) :
    (∃ answer, (s.attempt a).1 = .ok answer) ∧ (s.attempt a).2.entries = s.entries := by
  obtain ⟨operation, disk⟩ := a
  cases operation with
  | read key => exact ⟨⟨_, rfl⟩, rfl⟩
  | reopen => exact absurd rfl stays
  | write key text => exact nomatch idle
  | erase key =>
    have absent : ¬ ({ s with disk } : StoreFile).entries.contains key = true :=
      Bool.eq_false_iff.mp idle
    have erased : Store.erase ({ s with disk } : StoreFile) key = (.ok (), { s with disk }) :=
      if_neg absent
    unfold attempt
    simp only [Store.operate, erased]
    exact ⟨⟨_, rfl⟩, trivial⟩

theorem entries_of_writes (writes : a.operation.writes s.entries = true) :
    (s.attempt a).2.entries = a.operation.apply s.entries := by
  rw [attempt_of_writes writes, save_eq]
  split
  · rfl
  · rfl

/-- A change that fails has tried to write the file. -/
theorem writes_of_failed (stays : a.operation ≠ .reopen) (failed : (s.attempt a).1 = .error failure) :
    a.operation.writes s.entries = true := by
  cases writes : a.operation.writes s.entries with
  | true => rfl
  | false =>
    obtain ⟨⟨answer, worked⟩, -⟩ := attempt_of_idle writes stays
    exact nomatch failed.symm.trans worked

/-- A change that works leaves all entries in the file. -/
theorem place_of_writes (writes : a.operation.writes s.entries = true)
    (worked : (s.attempt a).1 = .ok none) :
    (s.attempt a).2.disk.place = .file (fileText (a.operation.apply s.entries)) := by
  rw [attempt_of_writes writes, save_eq] at worked ⊢
  split
  · rfl
  · rename_i off
    rw [if_neg off] at worked
    exact nomatch worked

/-- Of the operations that have the file written, only writing what is there already leaves the
entries as they are. -/
theorem apply_eq_self_iff {entries : NameMap String} {operation : StoreOperation}
    (writes : operation.writes entries = true) :
    operation.apply entries = entries ↔
      ∃ key text, operation = .write key text ∧ entries.get? key = some text := by
  cases operation with
  | read key => exact nomatch writes
  | reopen => exact nomatch writes
  | write key text =>
    constructor
    · intro same
      have there := entries.get?_insert key key text
      rw [if_pos rfl] at there
      exact ⟨key, text, rfl, same ▸ there⟩
    · rintro ⟨_, _, same, there⟩
      obtain ⟨rfl, rfl⟩ := StoreOperation.write.inj same
      apply NameMap.ext_get?
      intro name
      show (entries.insert key text).get? name = _
      rw [NameMap.get?_insert]
      split
      · rename_i here
        rw [← here, there]
      · rfl
  | erase key =>
    refine iff_of_false (fun same => ?_) nofun
    have gone := entries.get?_erase key key
    have stays : entries.erase key = entries := same
    have there : (entries.get? key).isSome = true := writes
    rw [if_pos rfl, stays] at gone
    rw [gone] at there
    exact nomatch there

/-! ### What the file has and what has failed -/

/-- What is known of a store file from its answers. -/
structure Ledger where
  /-- The entries that the file had when it was written or opened last. -/
  filed : NameMap String
  /-- The changes that have failed since, in their order. -/
  failed : List StoreOperation := []

namespace Ledger

variable {l : Ledger}

/-- The entries of the file with the failed changes made. -/
def entries (l : Ledger) : NameMap String :=
  l.failed.foldl StoreOperation.apply l.filed

/-- What is known after an attempt and its answer. -/
def after (l : Ledger) (a : Attempt) (answer : Except Failure (Option String)) : Ledger :=
  if a.operation.writes l.entries then
    match answer with
    | .ok _ => { filed := a.operation.apply l.entries }
    | .error _ => { l with failed := l.failed ++ [a.operation] }
  else
    match a.operation, ofDisk a.disk with
    | .reopen, .ok opened => { filed := opened.entries }
    | _, _ => l

/-- What is known after attempts, one after the other. -/
def along (l : Ledger) (s : StoreFile) : List Attempt → Ledger
  | [] => l
  | a :: rest => (l.after a (s.attempt a).1).along (s.attempt a).2 rest

/-- An attempt changes the entries in memory as the ledger tells. -/
theorem entries_after (inStep : s.entries = l.entries) (a : Attempt) :
    (s.attempt a).2.entries = (l.after a (s.attempt a).1).entries := by
  unfold after
  rw [← inStep]
  cases writes : a.operation.writes s.entries with
  | true =>
    rw [entries_of_writes writes, if_pos rfl]
    cases (s.attempt a).1 with
    | ok answer => rfl
    | error failure =>
      show _ = (l.failed ++ [a.operation]).foldl StoreOperation.apply l.filed
      rw [List.foldl_append, inStep]
      rfl
  | false =>
    rw [if_neg Bool.false_ne_true]
    by_cases stays : a.operation = .reopen
    · obtain ⟨operation, disk⟩ := a
      obtain rfl : operation = .reopen := stays
      show (s.attempt ⟨.reopen, disk⟩).2.entries = _
      have again : ({ s with disk } : StoreFile).reopened = ofDisk disk := rfl
      unfold attempt
      simp only [Store.operate, again]
      cases ofDisk disk with
      | ok opened => rfl
      | error failure => exact inStep
    · have same := (attempt_of_idle writes stays).2
      rw [same, inStep]
      split
      · exact absurd ‹_› stays
      · rfl

theorem entries_along (inStep : s.entries = l.entries) (run : List Attempt) :
    (s.attemptAll run).entries = (l.along s run).entries := by
  induction run generalizing l s with
  | nil => exact inStep
  | cons a rest ih => exact ih (entries_after inStep a)

/-- Failed changes that change nothing leave the entries those of the file. -/
theorem entries_of_idle (idle : ∀ change ∈ l.failed, change.apply l.filed = l.filed) :
    l.entries = l.filed := by
  obtain ⟨filed, failed⟩ := l
  unfold entries
  induction failed with
  | nil => rfl
  | cons change rest ih =>
    rw [List.foldl_cons, idle change List.mem_cons_self]
    exact ih fun other mem => idle other (List.mem_cons_of_mem _ mem)

end Ledger

/-- **Failed changes stay.** Let a store file be used in any way, the disk being anything at any
moment:

* its entries are those that the file had when it was written or opened last, with all changes made
  that have failed since; so they are those of the file as long as these change nothing;
* a change that fails is made in memory like any other, which leaves the entries as they were
  exactly when it writes a text that is there already;
* a change that works leaves all entries in the file, those of failed changes as well. -/
theorem failed_changes_stay (s : StoreFile) (run : List Attempt) :
    let now := s.attemptAll run
    let l := Ledger.along { filed := s.entries } s run
    now.entries = l.entries ∧
      ((∀ change ∈ l.failed, change.apply l.filed = l.filed) → now.entries = l.filed) ∧
      (∀ a failure, a.operation ≠ .reopen → (now.attempt a).1 = .error failure →
        (now.attempt a).2.entries = a.operation.apply now.entries ∧
          ((now.attempt a).2.entries = now.entries ↔
            ∃ key text, a.operation = .write key text ∧ now.entries.get? key = some text)) ∧
      ∀ a, a.operation.writes now.entries = true → (now.attempt a).1 = .ok none →
        (now.attempt a).2.disk.place = .file (fileText (a.operation.apply l.entries)) := by
  intro now l
  have same : now.entries = l.entries := Ledger.entries_along rfl run
  refine ⟨same, fun idle => same.trans (Ledger.entries_of_idle idle), ?_, ?_⟩
  · intro a failure stays failed
    have writes := writes_of_failed stays failed
    have changed := entries_of_writes writes
    exact ⟨changed, changed.symm ▸ apply_eq_self_iff writes⟩
  · intro a writes worked
    rw [← same]
    exact place_of_writes writes worked

/-- Two changes that fail after one that works, and another one that works and files them all. -/
theorem failed_changes_stay_of_run :
    let off : Disk := { place := .directory }
    let run : List Attempt := [⟨.write "a" "1", {}⟩, ⟨.write "b" "2", off⟩, ⟨.erase "a", off⟩]
    let now := attemptAll {} run
    now.entries = .ofList [("b", "2")] ∧
      (now.attempt ⟨.write "c" "3", {}⟩).2.disk.place =
        .file (fileText (.ofList [("b", "2"), ("c", "3")])) := by
  intro off run now
  obtain ⟨entries, -, -, filed⟩ := failed_changes_stay {} run
  refine ⟨entries.trans (by decide +kernel), ?_⟩
  exact (filed ⟨.write "c" "3", {}⟩ rfl (by decide +kernel)).trans (by decide +kernel)

/-- A text that could not be written is read back all the same, and the next change, of another key,
brings it to the file. -/
theorem failed_change_reaches_file :
    let failed := attempt {} ⟨.write "a" "1", { writable := false }⟩
    let later := failed.2.attempt ⟨.write "b" "2", {}⟩
    failed.1 = .error .badFile ∧ Store.read failed.2 "a" = .ok (some "1") ∧
      later.1 = .ok none ∧
      later.2.disk.place = .file (fileText (.ofList [("a", "1"), ("b", "2")])) := by
  decide +kernel

end StoreFile

end Blockwork
