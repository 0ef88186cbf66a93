import Blockwork.Generation.Query
import Blockwork.Proofs.Generation.Blocks

/-!
# Generation does not depend on what came before

A block answers the same on every stack and hands nothing but the usage of its snippet to the
frame around it (`Compiler.compile_run`). A run of queries starts outside of any block, so it is
enough that no query leaves a frame behind there:

* **one action** — `Gen.Balanced`: closed under sequencing, and true of every block whether it
  fails or not;
* **one query** — `Compiler.balanced_action`;
* **a run** — `Compiler.answers_without_history`: every query of a run gets the answer that it
  gets alone.
-/

namespace Blockwork

namespace Gen

variable {α β : Type}

/-- Outside of any block the action leaves no frame behind. -/
def Balanced (action : Gen α) : Prop :=
  (action.run []).2 = []

theorem Balanced.pure (a : α) : Balanced (Pure.pure a : Gen α) := rfl

theorem Balanced.fail (failure : Failure) : Balanced (Gen.fail failure : Gen α) := rfl

theorem Balanced.bind {action : Gen α} {next : α → Gen β} (first : Balanced action)
    (rest : ∀ a, Balanced (next a)) : Balanced (action >>= next) := by
  unfold Balanced run at first ⊢
  rw [bind_run]
  -- A failure ends on the stack of the first action, an answer on that of what follows.
  cases answered : action [] with
  | mk answer left =>
    rw [answered] at first
    obtain rfl : left = [] := first
    cases answer with
    | error failure => rfl
    | ok a => exact rest a

end Gen

/-! ### Queries -/

namespace Compiler

variable {c : Compiler} {b : Block}

theorem balanced_compile (c : Compiler) (b : Block) : (c.compile b).Balanced := by
  unfold Gen.Balanced Gen.run
  rw [compile_run]
  cases (c.compile b).outcome with
  | error failure => rfl
  | ok s => rfl

theorem balanced_codeOf (c : Compiler) (bs : List Block) :
    (Holder.codeOf (bs.map c.compile)).Balanced := by
  induction bs with
  | nil => exact .pure _
  | cons b rest ih => exact (c.balanced_compile b).bind fun _ => ih.bind fun _ => .pure _

theorem balanced_sequenceCode (c : Compiler) (b : Block) (input : String) :
    ((c.holder b).sequenceCode input).Balanced := by
  unfold Holder.sequenceCode
  rw [getD_holder_statements]
  exact c.balanced_codeOf _

theorem balanced_valueCode (c : Compiler) (b : Block) (input : String) (outer : Precedence) :
    ((c.holder b).valueCode input outer).Balanced := by
  unfold Holder.valueCode
  rw [get?_holder_values]
  cases b.plugged? input with
  | none => exact .pure _
  | some child =>
    refine (c.balanced_compile child).bind ?_
    intro s
    split
    · exact .pure _
    · exact .fail _

theorem balanced_action (c : Compiler) (q : Query) : (c.action q).Balanced := by
  cases q with
  | snippet b => exact c.balanced_compile b
  | valueCode b input outer => exact c.balanced_valueCode b input outer
  | sequenceCode b input => exact c.balanced_sequenceCode b input
  | indentedCode b input => exact (c.balanced_sequenceCode b input).bind fun _ => .pure _
  | note packages => rfl
  | noted => rfl
  | neededImports always => rfl
  | isAvailable path => rfl

/-- **Generation is independent of history.** Whatever stands on the stack, a block gives the
outcome that it gives outside of any block; a failure leaves the stack as it was, and an answer
changes nothing but the top frame, to which the usage of the snippet is added. So in a run of
queries, failing or not, each gets the answer that it gets on its own. -/
theorem answers_without_history (c : Compiler) :
    (∀ (b : Block) (frames : List Usage),
      (c.compile b).run frames =
        match (c.compile b).outcome with
        | .ok s => (.ok s, Gen.addToTop s.usage frames)
        | .error failure => (.error failure, frames)) ∧
    ∀ queries : List Query,
      c.answerAll queries [] = (queries.map fun q => ⟨q, (c.action q).outcome⟩, []) := by
  refine ⟨c.compile_run, ?_⟩
  intro queries
  induction queries with
  | nil => rfl
  | cons q rest ih =>
    have alone : (c.action q).run [] = ((c.action q).outcome, []) :=
      Prod.ext rfl (c.balanced_action q)
    simp only [answerAll, alone, ih, List.map_cons]

end Compiler

end Blockwork
