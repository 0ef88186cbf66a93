import Blockwork.Proofs.Import.Selection
import Blockwork.Session.Call

/-!
# What calls do to a session

Two calls edit the selection: choosing a path and giving one up. The edit is made before the
store is asked to keep the selection, and stays whatever the store answers (`Session.Edits.answer`);
asked for again, it has nothing left to do (`Session.Edits.again`). Taking in packages changes
nothing but the catalogue and the progress (`Session.TakesIn`).
-/

namespace Blockwork.Session

variable {σ τ : Type} {s s' : Session} {call : Call τ}

/-! ### Edits -/

/-- The call asks for an edit of the selection. -/
def Call.AsksEdit : Call τ → Prop
  | .choose _ => True
  | .giveUp _ => True
  | _ => False

instance : Decidable call.AsksEdit :=
  match call with
  | .choose _ | .giveUp _ => .isTrue trivial
  | .takeFunctions .. | .takeStructs .. | .takeAll _ | .replace _ | .read _
  | .keepPage _ | .recallPage _ | .adopt .. => .isFalse not_false

/-- If the call asks for choosing a path, the path is one that can be chosen. -/
def Call.Fits : Call τ → Prop
  | .choose path => ImportPath.isWellFormed (Text.trim path) = true
  | _ => True

instance : Decidable call.Fits :=
  match call with
  | .choose path => inferInstanceAs (Decidable (ImportPath.isWellFormed (Text.trim path) = true))
  | .giveUp _ | .takeFunctions .. | .takeStructs .. | .takeAll _ | .replace _ | .read _
  | .keepPage _ | .recallPage _ | .adopt .. => .isTrue trivial

/-- The call edits the selection, and after that the session is `s'`. -/
inductive Edits (s : Session) : Call τ → Session → Prop where
  | choose {path : String} {selection : Selection}
    (chosen : s.selection.choose path = .ok (true, selection)) :
    Edits s (.choose path) { s with selection }
  | giveUp {path : String} {selection : Selection}
    (given : s.selection.giveUp path = (true, selection)) :
    Edits s (.giveUp path)
      { s with selection, progress := s.progress.erase (Text.trim path) }

/-- An edit changes nothing but the selection and the progress. -/
theorem Edits.frame (edits : Edits s call s') :
    s'.settings = s.settings ∧ s'.catalogue = s.catalogue ∧ s'.program = s.program := by
  cases edits with
  | choose chosen => exact ⟨rfl, rfl, rfl⟩
  | giveUp given => exact ⟨rfl, rfl, rfl⟩

theorem Edits.fits (edits : Edits s call s') : call.Fits := by
  cases edits with
  | @choose path selection chosen =>
    unfold Selection.choose at chosen
    simp only at chosen
    split at chosen
    · exact nomatch chosen
    · rename_i wellFormed
      simpa [Call.Fits] using wellFormed
  | giveUp given => trivial

theorem Edits.isWritten (edits : Edits s call s') (written : s.selection.IsWritten) :
    s'.selection.IsWritten := by
  cases edits with
  | choose chosen => exact written.choose chosen
  | @giveUp path selection given =>
    have left : (s.selection.giveUp path).2 = selection := congrArg Prod.snd given
    rw [← left]
    exact written.giveUp path

section

variable [Store σ] [SharedPrograms τ]

/-- An edit stays done whatever the store answers. -/
theorem Edits.answer (edits : Edits s call s') (store : σ) :
    s.call store call =
      ((s'.keepSelection store).1.map fun _ => true, s', (s'.keepSelection store).2) := by
  cases edits with
  | choose chosen =>
    simp only [Session.call]
    unfold Session.choose
    rw [chosen]
  | giveUp given => simp only [Session.call, Session.giveUp, given]

/-- A call for an edit makes it, or leaves the session and the store alone; then there is nothing
to do, or the path is not one that can be chosen. -/
theorem edits_or_stays (asked : call.AsksEdit) (s : Session) (store : σ) :
    (∃ s', Edits s call s') ∨
      ((s.call store call).2 = (s, store) ∧
        ((s.call store call).1 = .ok false ∨
          ¬ call.Fits ∧ ∃ failure, (s.call store call).1 = .error failure)) := by
  cases call with
  | choose path =>
    rcases chosen : s.selection.choose path with failure | ⟨_ | _, selection⟩
    · have bad : ¬ (Call.choose path : Call τ).Fits := by
        intro fits
        unfold Selection.choose at chosen
        simp only at chosen
        rw [if_neg (by simpa [Call.Fits] using fits)] at chosen
        exact nomatch chosen
      refine .inr ?_
      simp only [Session.call]
      unfold Session.choose
      rw [chosen]
      exact ⟨rfl, .inr ⟨bad, failure, rfl⟩⟩
    · refine .inr ?_
      simp only [Session.call]
      unfold Session.choose
      rw [chosen]
      exact ⟨rfl, .inl rfl⟩
    · exact .inl ⟨_, .choose chosen⟩
  | giveUp path =>
    rcases given : s.selection.giveUp path with ⟨_ | _, selection⟩
    · refine .inr ?_
      simp only [Session.call, Session.giveUp, given]
      exact ⟨trivial, .inl trivial⟩
    · exact .inl ⟨_, .giveUp given⟩
  | _ => exact asked.elim

/-- An edit that is asked for again has nothing left to do. -/
theorem Edits.again (edits : Edits s call s') (store : σ) :
    s'.call store call = (.ok false, s', store) := by
  cases edits with
  | @choose path selection chosen =>
    have again : selection.choose path = .ok (false, selection.append (Text.trim path)) := by
      unfold Selection.choose at chosen ⊢
      simp only at chosen ⊢
      split at chosen
      · exact nomatch chosen
      · rename_i wellFormed
        obtain ⟨-, rfl⟩ := Prod.mk.inj (Except.ok.inj chosen)
        have there : Text.trim path ∈ s.selection.append (Text.trim path) :=
          mem_addNew.mpr (.inr rfl)
        rw [if_neg wellFormed, decide_eq_false (not_not_intro there)]
    simp only [Session.call]
    unfold Session.choose
    rw [again]
  | @giveUp path selection given =>
    have gone : Text.trim path ∉ selection := by
      obtain ⟨-, rfl⟩ := Prod.mk.inj given
      exact fun mem => of_decide_eq_true (List.mem_filter.mp mem).2 rfl
    simp only [Session.call, Session.giveUp, Selection.giveUp, decide_eq_false gone]

end

/-! ### Taking in packages -/

/-- Nothing but the catalogue and the progress differs. -/
structure TakesIn (s s' : Session) : Prop where
  settings : s'.settings = s.settings
  selection : s'.selection = s.selection
  program : s'.program = s.program

theorem TakesIn.rfl : TakesIn s s :=
  ⟨.refl _, .refl _, .refl _⟩

theorem TakesIn.trans {s'' : Session} (first : TakesIn s s') (second : TakesIn s' s'') :
    TakesIn s s'' where
  settings := second.settings.trans first.settings
  selection := second.selection.trans first.selection
  program := second.program.trans first.program

theorem takesIn_functions (s : Session) (path text : String) :
    TakesIn s (s.takeFunctions path text).2 := by
  unfold takeFunctions
  cases FunctionEntry.readAll text with
  | error failure => exact ⟨rfl, rfl, rfl⟩
  | ok entries => exact ⟨rfl, rfl, rfl⟩

theorem takesIn_structs (s : Session) (path text : String) :
    TakesIn s (s.takeStructs path text).2 := by
  unfold takeStructs
  cases StructEntry.readAll text with
  | error failure => exact ⟨rfl, rfl, rfl⟩
  | ok entries => exact ⟨rfl, rfl, rfl⟩

theorem takesIn_package (source : EntrySource) (state : Intake × Session) (path : String) :
    TakesIn state.2 (takePackage source state path).2 := by
  have functions : ∀ s : Session, TakesIn s (takeFunctionsFrom source s path).2 := by
    intro s
    unfold takeFunctionsFrom
    cases source.functions path with
    | error failure => exact ⟨rfl, rfl, rfl⟩
    | ok text => exact takesIn_functions s path text
  have structs : ∀ s : Session, TakesIn s (takeStructsFrom source s path).2 := by
    intro s
    unfold takeStructsFrom
    cases source.structs path with
    | error failure => exact ⟨rfl, rfl, rfl⟩
    | ok text => exact takesIn_structs s path text
  exact (functions state.2).trans (structs _)

theorem takesIn_all (s : Session) (source : EntrySource) : TakesIn s (s.takeAll source).2 := by
  have run : ∀ (paths : List String) (state : Intake × Session),
      TakesIn state.2 (paths.foldl (takePackage source) state).2 := by
    intro paths
    induction paths with
    | nil => exact fun _ => .rfl
    | cons path rest ih =>
      exact fun state => (takesIn_package source state path).trans (ih _)
  exact run s.selection.paths ({}, s)

end Blockwork.Session
