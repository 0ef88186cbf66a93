import Blockwork.Failure
import Blockwork.Snippet.Basic

/-!
# Generating code

An action of type `Gen α` runs on a stack of usages, one frame for each block that is being
generated, the innermost first. It answers with a value or a failure and always leaves a stack
behind. `framed` is what generating a block does to the stack: it opens a frame, runs the
block's own action, closes the frame, and hands the usage of the whole block to the block
around it.
-/

namespace Blockwork

/-- An action on the stack of usages. -/
def Gen (α : Type) : Type := List Usage → Except Failure α × List Usage

namespace Gen

variable {α β : Type}

/-- Runs an action on a stack. -/
def run (action : Gen α) (frames : List Usage) : Except Failure α × List Usage :=
  action frames

/-- What an action answers outside of any block. -/
def outcome (action : Gen α) : Except Failure α :=
  (action.run []).1

/-- Answers with a value. -/
protected def pure (a : α) : Gen α := fun frames => (.ok a, frames)

/-- Runs an action and goes on with its value; a failure ends the whole. -/
protected def bind (action : Gen α) (next : α → Gen β) : Gen β := fun frames =>
  match action frames with
  | (.ok a, frames) => next a frames
  | (.error failure, frames) => (.error failure, frames)

instance : Monad Gen where
  pure := Gen.pure
  bind := Gen.bind

/-- Answers with a failure. -/
def fail (failure : Failure) : Gen α := fun frames => (.error failure, frames)

/-- Answers with the outcome of a computation that does not look at the stack. -/
def lift (outcome : Except Failure α) : Gen α := fun frames => (outcome, frames)

/-- Notes packages in the innermost frame; without a frame nothing is noted. -/
def note (packages : List String) : Gen Unit := fun frames =>
  match frames with
  | [] => (.ok (), [])
  | top :: outer => (.ok (), packages.foldl Usage.note top :: outer)

/-- The packages noted in the innermost frame. -/
def noted : Gen NameSet := fun frames =>
  (.ok (frames.head?.elim .empty (·.packages)), frames)

/-- Adds a usage to the innermost frame, if there is one. -/
def addToTop (usage : Usage) : List Usage → List Usage
  | [] => []
  | top :: outer => (top ++ usage) :: outer

/-- Runs the action of a block in a frame of its own. The usage of the frame becomes part of
the snippet's, and the snippet's part of the frame around it. -/
def framed (action : Gen Snippet) : Gen Snippet := fun frames =>
  let (outcome, left) := action ({} :: frames)
  -- The action leaves the frames around its own as they were, so the head is its own frame.
  let inner := left.headD {}
  let outer := left.tail
  match outcome with
  | .ok snippet =>
    let whole := { snippet with usage := snippet.usage ++ inner }
    (.ok whole, addToTop whole.usage outer)
  | .error failure => (.error failure, outer)

/-! ### What actions do to a stack -/

@[simp] theorem pure_run (a : α) (frames : List Usage) :
    (pure a : Gen α) frames = (.ok a, frames) := rfl

theorem bind_run (action : Gen α) (next : α → Gen β) (frames : List Usage) :
    (action >>= next) frames =
      match action frames with
      | (.ok a, frames) => next a frames
      | (.error failure, frames) => (.error failure, frames) := rfl

@[simp] theorem fail_run (failure : Failure) (frames : List Usage) :
    (fail failure : Gen α) frames = (.error failure, frames) := rfl

/-- Steps may be grouped in any way, and steps that only answer may be left out. -/
instance : LawfulMonad Gen :=
  LawfulMonad.mk' Gen
    (fun action => by
      funext frames
      show Gen.bind action (Gen.pure ∘ id) frames = action frames
      unfold Gen.bind
      rcases action frames with ⟨_ | _, _⟩ <;> rfl)
    (fun _ _ => rfl)
    (fun action next last => by
      funext frames
      show Gen.bind (Gen.bind action next) last frames =
        Gen.bind action (fun a => Gen.bind (next a) last) frames
      unfold Gen.bind
      rcases action frames with ⟨_ | _, _⟩ <;> rfl)

end Gen

end Blockwork
