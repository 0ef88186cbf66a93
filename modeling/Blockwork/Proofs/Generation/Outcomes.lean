import Blockwork.Proofs.Generation.Blocks
import Blockwork.Proofs.Generation.Congruence
import Mathlib.Data.List.Forall2

/-!
# Relating what two blocks answer

`Congruence` compares what generators do when their inputs are related. Here the relation is one
between outcomes, and the inputs are blocks:

* **outcomes** — `OutcomeCongruence`: a relation that every answer has to itself and that
  sequencing keeps; `Gen.Lifted` turns it into one between actions, on any stack;
* **inputs** — `Compiler.related_valueCode` and `Compiler.related_sequenceCode`: the blocks in two
  slots or two sequences, pair by pair;
* **blocks** — `Compiler.lifted_of_listed`: two blocks of one listed type are related when the
  blocks in their declared inputs are.
-/

namespace Blockwork

/-- A relation between outcomes that holds between an answer and itself, and that going on with
the answer keeps. -/
structure OutcomeCongruence
    (R : {α : Type} → Except Failure α → Except Failure α → Prop) : Prop where
  ok : ∀ {α : Type} (a : α), R (.ok a) (.ok a)
  bind : ∀ {α β : Type} {outcome outcome' : Except Failure α} {next next' : α → Except Failure β},
    R outcome outcome' → (∀ a, R (next a) (next' a)) → R (outcome.bind next) (outcome'.bind next')

theorem OutcomeCongruence.map {R : {α : Type} → Except Failure α → Except Failure α → Prop}
    (outcomes : OutcomeCongruence R) {α β : Type} {outcome outcome' : Except Failure α}
    (related : R outcome outcome') (f : α → β) : R (outcome.map f) (outcome'.map f) := by
  have form : ∀ outcome : Except Failure α, outcome.map f = outcome.bind fun a => .ok (f a) := by
    intro outcome
    cases outcome <;> rfl
  rw [form, form]
  exact outcomes.bind related fun a => outcomes.ok (f a)

namespace Gen

variable {α β : Type} {R : {α : Type} → Except Failure α → Except Failure α → Prop}

/-- What an action answers on a stack, with the stack that it then leaves. -/
def result (action : Gen α) (frames : List Usage) : Except Failure (α × List Usage) :=
  (action frames).1.map fun a => (a, (action frames).2)

theorem result_bind (action : Gen α) (next : α → Gen β) (frames : List Usage) :
    (action >>= next).result frames =
      (action.result frames).bind fun answer => (next answer.1).result answer.2 := by
  unfold result
  rw [bind_run]
  rcases action frames with ⟨outcome, left⟩
  cases outcome <;> rfl

theorem result_framed (action : Gen Snippet) (frames : List Usage) :
    (framed action).result frames =
      (action.result ({} :: frames)).bind fun answer =>
        let whole := { answer.1 with usage := answer.1.usage ++ answer.2.headD {} }
        .ok (whole, addToTop whole.usage answer.2.tail) := by
  unfold result framed
  rcases action ({} :: frames) with ⟨outcome, left⟩
  cases outcome <;> rfl

theorem outcome_eq (action : Gen α) :
    action.outcome = (action.result []).map fun answer => answer.1 := by
  unfold outcome run result
  cases (action []).1 <;> rfl

/-- The results of both actions are related, on every stack. -/
def Lifted (R : {α : Type} → Except Failure α → Except Failure α → Prop)
    (action action' : Gen α) : Prop :=
  ∀ frames, R (action.result frames) (action'.result frames)

theorem Lifted.fail {failure failure' : Failure}
    (related : ∀ {α : Type}, R (.error failure : Except Failure α) (.error failure')) :
    Lifted R (Gen.fail failure : Gen α) (Gen.fail failure') := fun _ => related

theorem congruence_lifted (outcomes : OutcomeCongruence R) : Gen.Congruence (Lifted R) where
  pure a _ := outcomes.ok _
  note packages frames := by
    unfold result note
    cases frames <;> exact outcomes.ok _
  noted _ := outcomes.ok _
  bind first rest frames := by
    rw [result_bind, result_bind]
    exact outcomes.bind (first frames) fun answer => rest answer.1 answer.2

theorem Lifted.framed (outcomes : OutcomeCongruence R) {action action' : Gen Snippet}
    (lifted : Lifted R action action') : Lifted R (Gen.framed action) (Gen.framed action') := by
  intro frames
  rw [result_framed, result_framed]
  exact outcomes.bind (lifted _) fun _ => outcomes.ok _

theorem Lifted.outcome (outcomes : OutcomeCongruence R) {action action' : Gen α}
    (lifted : Lifted R action action') : R action.outcome action'.outcome := by
  rw [outcome_eq, outcome_eq]
  exact outcomes.map (lifted []) _

end Gen

/-! ### Inputs -/

theorem Holder.related_codeOf {rel : {α : Type} → Gen α → Gen α → Prop}
    (congruence : Gen.Congruence rel) {actions actions' : List (Gen Snippet)}
    (related : List.Forall₂ rel actions actions') : rel (codeOf actions) (codeOf actions') := by
  induction related with
  | nil => exact congruence.pure _
  | cons first _ ih =>
    exact congruence.bind first fun _ => congruence.bind ih fun _ => congruence.pure _

namespace Compiler

variable {rel : {α : Type} → Gen α → Gen α → Prop} {c c' : Compiler} {b b' : Block}

/-- Two blocks fill one slot of two blocks: what they generate is related, and so are the
complaints that they make no value. -/
def FillAlike (rel : {α : Type} → Gen α → Gen α → Prop) (c c' : Compiler) (b b' : Block)
    (input : String) (child child' : Block) : Prop :=
  rel (c.compile child) (c'.compile child') ∧
    rel (Gen.fail (.notValue child.id child.kind input b.id) : Gen String)
      (Gen.fail (.notValue child'.id child'.kind input b'.id))

theorem related_valueCode (congruence : Gen.Congruence rel) {input : String}
    (slots : Option.Rel (FillAlike rel c c' b b' input) (b.plugged? input) (b'.plugged? input))
    (outer : Precedence) :
    rel ((c.holder b).valueCode input outer) ((c'.holder b').valueCode input outer) := by
  unfold Holder.valueCode
  rw [get?_holder_values, get?_holder_values]
  generalize b.plugged? input = plugged, b'.plugged? input = plugged' at slots
  cases slots with
  | none => exact congruence.pure _
  | some alike =>
    refine congruence.bind alike.1 ?_
    intro s
    split
    · exact congruence.pure _
    · exact alike.2

theorem related_sequenceCode (congruence : Gen.Congruence rel) {input : String}
    (sequences : List.Forall₂ (fun child child' => rel (c.compile child) (c'.compile child'))
      (b.sequenceIn input) (b'.sequenceIn input)) :
    rel ((c.holder b).sequenceCode input) ((c'.holder b').sequenceCode input) := by
  unfold Holder.sequenceCode
  rw [getD_holder_statements, getD_holder_statements]
  refine Holder.related_codeOf congruence ?_
  rw [List.forall₂_map_left_iff, List.forall₂_map_right_iff]
  exact sequences

/-! ### Blocks -/

/-- Two blocks of one listed type are related when the generator finds their inputs related. -/
theorem lifted_of_listed {R : {α : Type} → Except Failure α → Except Failure α → Prop}
    (outcomes : OutcomeCongruence R) {listing : Listing}
    (listed : c.catalogue.get? b.kind = some listing)
    (listed' : c'.catalogue.get? b'.kind = some listing)
    (surroundings : c.surroundings = c'.surroundings)
    (related : Holder.Related (Gen.Lifted R) listing.generator.blockType (c.holder b)
      (c'.holder b')) :
    Gen.Lifted R (c.compile b) (c'.compile b') := by
  rw [compile_of_listed listed, compile_of_listed listed', ← surroundings]
  exact .framed outcomes (listing.generator.related (Gen.congruence_lifted outcomes) related)

end Compiler

end Blockwork
