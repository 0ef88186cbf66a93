import Blockwork.Generation.Compiler

/-!
# Actions on the innermost frame

A generator never looks below its own frame. `Steady` says this of an action: the frames
around the innermost one are left as they are, and neither the answer nor the new innermost
frame depends on them. Steady actions are closed under everything that generators are made of,
so every block is generated steadily, on any stack:

* **one block** — `compile_run`: the answer is the one given on the empty stack; a failure
  leaves the stack as it was, an answer only adds the usage of the snippet to its top;
* **one frame** — `onTop` reads a steady action as a function of the innermost frame, and turns
  sequencing into the bind of `Except` (`onTop_bind`), so that what a generator does can be
  read off its definition without ever mentioning a stack.
-/

namespace Blockwork

namespace Gen

variable {α β : Type}

/-- The action works on the innermost frame only. -/
def Steady (action : Gen α) : Prop :=
  ∀ top outer, action (top :: outer) = ((action [top]).1, (action [top]).2.headD {} :: outer)

/-- What an action answers when it starts on the frame `top`, and the frame it ends with. -/
def onTop (action : Gen α) (top : Usage) : Except Failure (α × Usage) :=
  (action [top]).1.map fun a => (a, (action [top]).2.headD {})

/-! ### Closure -/

@[simp] theorem Steady.pure (a : α) : Steady (Pure.pure a : Gen α) := fun _ _ => rfl

@[simp] theorem Steady.fail (failure : Failure) : Steady (Gen.fail failure : Gen α) :=
  fun _ _ => rfl

@[simp] theorem Steady.lift (outcome : Except Failure α) : Steady (Gen.lift outcome) :=
  fun _ _ => rfl

@[simp] theorem Steady.note (packages : List String) : Steady (Gen.note packages) :=
  fun _ _ => rfl

@[simp] theorem Steady.noted : Steady Gen.noted := fun _ _ => rfl

theorem Steady.bind {action : Gen α} {next : α → Gen β} (first : Steady action)
    (rest : ∀ a, Steady (next a)) : Steady (action >>= next) := by
  intro top outer
  rw [bind_run, bind_run, first top outer, first top []]
  cases (action [top]).1 with
  | error failure => rfl
  | ok a => exact rest a _ outer

/-- A block with a frame of its own leaves every stack as it was, or adds to its top. -/
theorem framed_run {action : Gen Snippet} (steady : Steady action) (frames : List Usage) :
    framed action frames =
      match (framed action).outcome with
      | .ok snippet => (.ok snippet, addToTop snippet.usage frames)
      | .error failure => (.error failure, frames) := by
  have here := steady {} frames
  have alone := steady {} []
  unfold outcome run framed
  rw [here, alone]
  cases (action [{}]).1 <;> rfl

theorem Steady.framed {action : Gen Snippet} (steady : Steady action) :
    Steady (Gen.framed action) := by
  intro top outer
  rw [framed_run steady, framed_run steady]
  cases (Gen.framed action).outcome <;> rfl

/-! ### Reading a steady action as a function of its frame -/

@[simp] theorem onTop_pure (a : α) (top : Usage) :
    (Pure.pure a : Gen α).onTop top = .ok (a, top) := rfl

@[simp] theorem onTop_fail (failure : Failure) (top : Usage) :
    (Gen.fail failure : Gen α).onTop top = .error failure := rfl

@[simp] theorem onTop_lift (outcome : Except Failure α) (top : Usage) :
    (Gen.lift outcome).onTop top = outcome.map fun a => (a, top) := rfl

@[simp] theorem onTop_note (packages : List String) (top : Usage) :
    (Gen.note packages).onTop top = .ok ((), packages.foldl Usage.note top) := rfl

@[simp] theorem onTop_noted (top : Usage) :
    Gen.noted.onTop top = .ok (top.packages, top) := rfl

theorem onTop_bind {action : Gen α} (steady : Steady action) (next : α → Gen β) (top : Usage) :
    (action >>= next).onTop top =
      (action.onTop top).bind fun answer => (next answer.1).onTop answer.2 := by
  unfold onTop
  rw [bind_run, steady top []]
  cases (action [top]).1 <;> rfl

/-- Outside of any block a block answers what its action answers on an empty frame, with the
usage of that frame. -/
theorem outcome_framed (action : Gen Snippet) :
    (framed action).outcome =
      (action.onTop {}).map fun answer =>
        { answer.1 with usage := answer.1.usage ++ answer.2 } := by
  unfold outcome run framed onTop
  cases h : (action [{}]).1 <;> simp only [h] <;> rfl

/-! ### Answers -/

/-- Started on the frame `top`, the action answers `a` and makes the frame `after` of it. -/
def Answers (action : Gen α) (top : Usage) (a : α) (after : Usage) : Prop :=
  action.onTop top = .ok (a, after)

variable {a : α} {b : β} {top after : Usage}

@[simp] theorem answers_pure {x : α} :
    (Pure.pure x : Gen α).Answers top a after ↔ a = x ∧ after = top := by
  simp [Answers, eq_comm]

@[simp] theorem answers_fail {failure : Failure} :
    ¬ (Gen.fail failure : Gen α).Answers top a after := by
  simp [Answers]

@[simp] theorem answers_lift {outcome : Except Failure α} :
    (Gen.lift outcome).Answers top a after ↔ outcome = .ok a ∧ after = top := by
  cases outcome <;> simp [Answers, Except.map, eq_comm]

@[simp] theorem answers_note {packages : List String} {u : Unit} :
    (Gen.note packages).Answers top u after ↔ after = packages.foldl Usage.note top := by
  simp [Answers, eq_comm]

@[simp] theorem answers_noted {packages : NameSet} :
    Gen.noted.Answers top packages after ↔ packages = top.packages ∧ after = top := by
  simp [Answers, eq_comm]

/-- An action and what follows it answer when the action does, and then what follows does. -/
theorem answers_bind {action : Gen α} (steady : Steady action) {next : α → Gen β} :
    (action >>= next).Answers top b after ↔
      ∃ a mid, action.Answers top a mid ∧ (next a).Answers mid b after := by
  unfold Answers
  rw [onTop_bind steady]
  cases action.onTop top with
  | error failure => simp [Except.bind]
  | ok answer =>
    obtain ⟨x, mid⟩ := answer
    constructor
    · intro answered
      exact ⟨x, mid, rfl, answered⟩
    · rintro ⟨_, _, same, answered⟩
      cases same
      exact answered

/-- The special case of an action whose answer is only put into a form. -/
theorem answers_bind_pure {action : Gen α} (steady : Steady action) {f : α → β} :
    (action >>= fun a => pure (f a)).Answers top b after ↔
      ∃ a, action.Answers top a after ∧ b = f a := by
  simp only [answers_bind steady, answers_pure]
  grind

theorem outcome_framed_eq_ok {action : Gen Snippet} {s : Snippet} :
    (framed action).outcome = .ok s ↔
      ∃ own inner, action.Answers {} own inner ∧
        s = { own with usage := own.usage ++ inner } := by
  unfold Answers
  rw [outcome_framed]
  cases action.onTop {} with
  | error failure => simp [Except.map]
  | ok answer => simp [Except.map, Prod.ext_iff]; grind

end Gen

/-! ### Blocks -/

namespace Holder

variable {h : Holder}

/-- Every action that came with the block is steady. -/
structure Steady (h : Holder) : Prop where
  values : ∀ input plug, Entries.get? input h.values = some plug → plug.action.Steady
  statements : ∀ input, ∀ action ∈ (Entries.get? input h.statements).getD [], action.Steady

theorem Steady.valueCode (steady : h.Steady) (input : String) (outer : Precedence) :
    (h.valueCode input outer).Steady := by
  unfold Holder.valueCode
  cases found : Entries.get? input h.values with
  | none => exact .pure _
  | some plug =>
    refine (steady.values input plug found).bind ?_
    intro snippet
    split
    · exact .pure _
    · exact .fail _

theorem steady_codeOf {actions : List (Gen Snippet)} (steady : ∀ action ∈ actions, action.Steady) :
    (codeOf actions).Steady := by
  induction actions with
  | nil => exact .pure _
  | cons action rest ih =>
    refine (steady action List.mem_cons_self).bind ?_
    intro snippet
    exact (ih fun other mem => steady other (List.mem_cons_of_mem _ mem)).bind fun _ => .pure _

theorem Steady.sequenceCode (steady : h.Steady) (input : String) :
    (h.sequenceCode input).Steady :=
  steady_codeOf (steady.statements input)

theorem Steady.indentedCode (steady : h.Steady) (env : Surroundings) (input : String) :
    (h.indentedCode env input).Steady :=
  (steady.sequenceCode input).bind fun _ => .pure _

theorem Steady.arguments (steady : h.Steady) (parameters : List Parameter) :
    (h.arguments parameters).Steady := by
  induction parameters with
  | nil => exact .pure _
  | cons p rest ih =>
    exact (steady.valueCode p.name .loosest).bind fun _ => ih.bind fun _ => .pure _

end Holder

@[simp] theorem Surroundings.steady_neededImports (env : Surroundings) (always : List String) :
    (env.neededImports always).Steady := fun _ _ => rfl

@[simp] theorem Builtin.steady_noteQualifiers (code : String) :
    (Builtin.noteQualifiers code).Steady := fun _ _ => rfl

end Blockwork
