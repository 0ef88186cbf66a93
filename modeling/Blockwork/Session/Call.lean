import Blockwork.Session.Program

/-!
# Calls of a session

The editor asks one thing after the other of its session, which changes the session and the
store behind it. Each call starts on what the one before left, also when that one failed.
-/

namespace Blockwork.Session

/-- What is asked of a session, with places of type `τ` for shared programs. -/
inductive Call (τ : Type) where
  | choose (path : String)
  | giveUp (path : String)
  | takeFunctions (path text : String)
  | takeStructs (path text : String)
  | takeAll (source : EntrySource)
  | replace (program : Program)
  | read (text : String)
  | keepPage (address : String)
  | recallPage (address : String)
  | adopt (shared : τ) (key : String)

variable {σ τ : Type} [Store σ] [SharedPrograms τ]

/-- Answers a call: with false where the path was chosen already or was not chosen, and where
nothing is kept for the page. -/
def call (s : Session) (store : σ) : Call τ → Except Failure Bool × Session × σ
  | .choose path => s.choose path store
  | .giveUp path => s.giveUp path store
  | .takeFunctions path text =>
    let (outcome, s) := s.takeFunctions path text
    (outcome.map fun _ => true, s, store)
  | .takeStructs path text =>
    let (outcome, s) := s.takeStructs path text
    (outcome.map fun _ => true, s, store)
  | .takeAll source => (.ok true, (s.takeAll source).2, store)
  | .replace program => (.ok true, s.withProgram program, store)
  | .read text =>
    let (outcome, s) := s.readProgram text
    (outcome.map fun _ => true, s, store)
  | .keepPage address =>
    let (outcome, store) := s.keepProgram store address
    (outcome.map fun _ => true, s, store)
  | .recallPage address =>
    let (outcome, s) := s.recallProgram store address
    (outcome, s, store)
  | .adopt shared key =>
    let (outcome, s, _) := s.adopt shared key
    (outcome.map fun _ => true, s, store)

/-- The session and the store that calls leave, one after the other. -/
def callAll (s : Session) (store : σ) (calls : List (Call τ)) : Session × σ :=
  calls.foldl (fun state call => (state.1.call state.2 call).2) (s, store)

theorem callAll_concat (s : Session) (store : σ) (calls : List (Call τ)) (last : Call τ) :
    s.callAll store (calls ++ [last]) =
      ((s.callAll store calls).1.call (s.callAll store calls).2 last).2 := by
  unfold callAll
  rw [List.foldl_append]
  rfl

end Blockwork.Session
