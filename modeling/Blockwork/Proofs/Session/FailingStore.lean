import Mathlib.Control.Monad.Basic
import Blockwork.Proofs.Session.Edits
import Blockwork.Store.File

/-!
# Editing the selection while the store fails

A store may fail at any moment. An edit that fails on its path changes nothing; one that fails in
the store stays done in the session, and asked for again it does not reach the store
(`Session.Edits.answer`, `Session.Edits.again`). `Keeping` tells from the answers of a run what
the store has kept. The session's selection is the one that was kept last as long as no edit has
failed in the store since.
-/

namespace Blockwork.Session

variable {σ τ : Type} [Store σ] [SharedPrograms τ]

/-- What a store has kept of the selections that it was asked to keep. -/
structure Keeping where
  /-- The selection that it kept last. -/
  selection : Selection
  /-- Whether it has failed to keep a later one. -/
  behind : Bool := false

namespace Keeping

/-- What the store has kept after a call with its answer and the session that it leaves. An edit
is answered with true when the store has kept what it leads to. -/
def after (k : Keeping) (call : Call τ) (answer : Except Failure Bool) (s : Session) : Keeping :=
  match answer with
  | .ok true => if call.AsksEdit then ⟨s.selection, false⟩ else k
  | .ok false => k
  | .error _ => if call.AsksEdit ∧ call.Fits then { k with behind := true } else k

/-- What the store has kept after calls, one after the other. -/
def along (k : Keeping) (s : Session) (store : σ) : List (Call τ) → Keeping
  | [] => k
  | call :: rest =>
    let (answer, s, store) := s.call store call
    (k.after call answer s).along s store rest

/-- The session has the selection that was kept last, unless the store is behind. -/
def InStep (k : Keeping) (s : Session) : Prop :=
  k.behind = false → s.selection = k.selection

/-- Only edits change the selection. -/
theorem selection_of_not_asked {call : Call τ} (other : ¬ call.AsksEdit) (s : Session)
    (store : σ) : (s.call store call).2.1.selection = s.selection := by
  have read : ∀ text, (s.readProgram text).2.selection = s.selection := by
    intro text
    unfold readProgram
    cases Program.ofText text with
    | ok program => rfl
    | error failure => rfl
  cases call with
  | choose path => exact absurd trivial other
  | giveUp path => exact absurd trivial other
  | takeFunctions path text => exact (takesIn_functions s path text).selection
  | takeStructs path text => exact (takesIn_structs s path text).selection
  | takeAll source => exact (takesIn_all s source).selection
  | replace program => rfl
  | read text => exact read text
  | keepPage address => rfl
  | recallPage address =>
    simp only [Session.call, recallProgram]
    rcases Program.kept? store address with failure | _ | program
    · rfl
    · rfl
    · rfl
  | adopt shared key =>
    simp only [Session.call, adopt]
    rcases SharedPrograms.fetch shared key with ⟨failure | text, rest⟩
    · rfl
    · exact read text

/-- A call keeps the session in step with what the store has kept. -/
theorem InStep.after {k : Keeping} {s : Session} (inStep : k.InStep s) (call : Call τ)
    (store : σ) :
    (k.after call (s.call store call).1 (s.call store call).2.1).InStep
      (s.call store call).2.1 := by
  by_cases asked : call.AsksEdit
  · rcases edits_or_stays asked s store with ⟨s', edits⟩ | ⟨stays, idle⟩
    · rw [edits.answer]
      -- The answer to an edit is the store's.
      cases (s'.keepSelection store).1 with
      | ok _ =>
        simp only [Except.map, Keeping.after, if_pos asked]
        exact fun _ => rfl
      | error failure =>
        simp only [Except.map, Keeping.after, if_pos (And.intro asked edits.fits)]
        exact nofun
    · rw [stays]
      rcases idle with nothing | ⟨unfit, failure, failed⟩
      · rw [nothing]
        exact inStep
      · simp only [failed, Keeping.after, if_neg fun both : _ ∧ _ => unfit both.2]
        exact inStep
  · have same := selection_of_not_asked asked s store
    have kept : k.after call (s.call store call).1 (s.call store call).2.1 = k := by
      unfold Keeping.after
      split
      · exact if_neg asked
      · rfl
      · exact if_neg fun both => asked both.1
    rw [kept]
    exact fun current => same.trans (inStep current)

/-- A run keeps the session in step with what the store has kept. -/
theorem InStep.along {k : Keeping} {s : Session} (inStep : k.InStep s) (store : σ)
    (calls : List (Call τ)) :
    (k.along s store calls).InStep (s.callAll store calls).1 := by
  induction calls generalizing k s store with
  | nil => exact inStep
  | cons call rest ih => exact ih (inStep.after call store) (s.call store call).2.2

end Keeping

/-- **Edits and failing stores.** Whatever a store does:

* an edit that fails because its path cannot be chosen leaves the session and the store alone;
* an edit that fails otherwise is done in the session, and changes nothing there but the selection
  and the progress; asked for again of any store, it is answered with false and reaches neither;
* at every point of a run the session has the selection that was kept last, unless an edit has
  failed since because of the store. -/
theorem edits_on_failing_store (s : Session) (store : σ) :
    (∀ (call : Call τ) (failure : Failure), call.AsksEdit →
      (s.call store call).1 = .error failure →
      if call.Fits then
        Edits s call (s.call store call).2.1 ∧
          ∀ later : σ, (s.call store call).2.1.call later call =
            (.ok false, (s.call store call).2.1, later)
      else (s.call store call).2 = (s, store)) ∧
    ∀ (calls : List (Call τ)) (k : Keeping), k.selection = s.selection →
      (k.along s store calls).behind = false →
        (s.callAll store calls).1.selection = (k.along s store calls).selection := by
  refine ⟨fun call failure asked failed => ?_, fun calls k same current => ?_⟩
  · rcases edits_or_stays asked s store with ⟨s', edits⟩ | ⟨stays, nothing | ⟨unfit, -⟩⟩
    · rw [if_pos edits.fits, edits.answer]
      exact ⟨edits, fun later => edits.again later⟩
    · rw [nothing] at failed
      exact nomatch failed
    · rw [if_neg unfit]
      exact stays
  · exact Keeping.InStep.along (fun _ => same.symm) store calls current

/-- A path chosen while the file cannot be written, and a run in which it can. -/
theorem edits_on_failing_store_of_file :
    let s : Session := {}
    let off : StoreFile := { disk := { writable := false } }
    let calls : List (Call Shelf) := [.choose "fmt", .choose "a b", .choose "os", .giveUp "fmt"]
    (∀ later : StoreFile, (s.call off (.choose "fmt" : Call Shelf)).2.1.call later
      (.choose "fmt" : Call Shelf) =
        (.ok false, (s.call off (.choose "fmt" : Call Shelf)).2.1, later)) ∧
    (s.callAll ({} : StoreFile) calls).1.selection.paths = ["os"] := by
  intro s off calls
  refine ⟨?_, ?_⟩
  · have edit := (edits_on_failing_store s off).1 (.choose "fmt" : Call Shelf) .badFile trivial
      (by decide +kernel)
    rw [if_pos (by decide +kernel)] at edit
    exact edit.2
  · have run := (edits_on_failing_store s ({} : StoreFile)).2 calls ⟨s.selection, false⟩ rfl
      (by decide +kernel)
    rw [run]
    decide +kernel

/-- A path that was chosen while the file could not be written stays chosen, although nothing is
kept. Chosen again once the file can be written, it still is not kept. -/
theorem edit_survives_failed_write :
    let off : StoreFile := { disk := { writable := false } }
    let failed := ({} : Session).choose "fmt" off
    let again := failed.2.1.choose "fmt" { failed.2.2 with disk := {} }
    (failed.1 = .error .badFile ∧ failed.2.1.selection.paths = ["fmt"] ∧
        failed.2.2.disk.place = .vacant) ∧
      again.1 = .ok false ∧ again.2.2.disk.place = .vacant := by
  decide +kernel

end Blockwork.Session
