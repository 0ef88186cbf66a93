import Blockwork.Proofs.Generation.Answers
import Blockwork.Proofs.Generation.Congruence

/-!
# Why generators fail

A generator fails because a block in one of its declared inputs does, because such a block makes
no value, or because it finds fault with its own block. `Gen.FailsBy` bounds the failures of an
action, and follows how generators are made; `Builtin.Complaint` lists the faults that built-ins
find with their own blocks. The blocks of package items are never at fault.
-/

namespace Blockwork

variable {P : Failure → Prop} {h : Holder} {env : Surroundings}

namespace Gen

variable {α β : Type}

theorem error_of_map {outcome : Except Failure α} {f : α → β} {failure : Failure}
    (failed : outcome.map f = .error failure) : outcome = .error failure := by
  cases outcome with
  | ok a => exact nomatch failed
  | error other => exact congrArg _ (Except.error.inj failed)

/-- A steady action whose failures all have a property, on whatever frame it starts. -/
structure FailsBy (P : Failure → Prop) (action : Gen α) : Prop where
  steady : action.Steady
  blamed : ∀ top failure, action.onTop top = .error failure → P failure

namespace FailsBy

theorem pure (a : α) : FailsBy P (Pure.pure a : Gen α) := ⟨.pure a, nofun⟩

theorem note (packages : List String) : FailsBy P (Gen.note packages) := ⟨.note packages, nofun⟩

theorem noted : FailsBy P Gen.noted := ⟨.noted, nofun⟩

theorem fail {failure : Failure} (blamed : P failure) : FailsBy P (Gen.fail failure : Gen α) := by
  refine ⟨.fail failure, fun top other failed => ?_⟩
  rw [onTop_fail] at failed
  exact Except.error.inj failed ▸ blamed

theorem lift {outcome : Except Failure α}
    (blamed : ∀ failure, outcome = .error failure → P failure) : FailsBy P (Gen.lift outcome) := by
  refine ⟨.lift outcome, fun top failure failed => blamed failure ?_⟩
  rw [onTop_lift] at failed
  exact error_of_map failed

/-- What comes after an action may count on the action having answered. -/
theorem bind {action : Gen α} {next : α → Gen β} (first : FailsBy P action)
    (rest : ∀ a, (∃ top mid, action.Answers top a mid) → FailsBy P (next a)) :
    FailsBy P (action >>= next) where
  steady := by
    intro top outer
    rw [bind_run, bind_run, first.steady top outer, first.steady top []]
    cases answered : (action [top]).1 with
    | error failure => rfl
    | ok a =>
      refine (rest a ⟨top, (action [top]).2.headD {}, ?_⟩).steady _ outer
      unfold Answers onTop
      rw [answered]
      rfl
  blamed := by
    intro top failure failed
    rw [onTop_bind first.steady] at failed
    cases answered : action.onTop top with
    | error other =>
      rw [answered] at failed
      exact first.blamed top failure (answered.trans (congrArg _ (Except.error.inj failed)))
    | ok answer =>
      rw [answered] at failed
      exact (rest answer.1 ⟨top, answer.2, answered⟩).blamed answer.2 failure failed

end FailsBy

end Gen

/-! ### Generators -/

/-- The inputs that a block type declares fail for known reasons. -/
structure Holder.FailsBy (P : Failure → Prop) (t : BlockType) (h : Holder) : Prop where
  valueCode : ∀ name, t.hasValue name = true → ∀ outer, (h.valueCode name outer).FailsBy P
  sequenceCode : ∀ name, t.hasStatement name = true → (h.sequenceCode name).FailsBy P

namespace Holder.FailsBy

variable {t : BlockType}

theorem indentedCode (inputs : h.FailsBy P t) (name : String)
    (declared : t.hasStatement name = true) : (h.indentedCode env name).FailsBy P :=
  (inputs.sequenceCode name declared).bind fun _ _ => .pure _

theorem arguments (inputs : h.FailsBy P t) {parameters : List Parameter}
    (declared : ∀ p ∈ parameters, t.hasValue p.name = true) :
    (h.arguments parameters).FailsBy P := by
  induction parameters with
  | nil => exact .pure _
  | cons p rest ih =>
    have others := ih fun other mem => declared other (List.mem_cons_of_mem _ mem)
    exact (inputs.valueCode p.name (declared p List.mem_cons_self) _).bind fun _ _ =>
      others.bind fun _ _ => .pure _

end Holder.FailsBy

theorem Surroundings.failsBy_neededImports (env : Surroundings) (always : List String) :
    (env.neededImports always).FailsBy P :=
  Gen.FailsBy.noted.bind fun _ _ => .pure _

namespace Builtin

/-- The faults that a built-in finds with its own block. -/
inductive Complaint (h : Holder) : Builtin → Failure → Prop where
  | port {failure : Failure} (refused : portOf h.block = .error failure) :
      Complaint h server failure
  | method {failure : Failure} (refused : methodOf h.block = .error failure) :
      Complaint h route failure
  | number {failure : Failure} (unread : h.block.numberD "NUM" .zero = .error failure) :
      Complaint h number failure
  | infinite {x : Binary64} (read : h.block.numberD "NUM" .zero = .ok x)
      (infinite : x.isFinite ≠ true) :
      Complaint h number (.badField h.block.id "NUM" (.notFinite x))
  | literal {value : String} {top mid : Usage}
      (answered : (h.valueCode "VALUE" .atomic).Answers top value mid) (present : value ≠ "")
      (unread : Source.literalText? value = none) :
      Complaint h require (.badField h.block.id "VALUE" (.notLiteral value))

/-- A built-in fails because an input does, or because it finds fault with its block. -/
theorem failsBy_snippet (k : Builtin) (inputs : h.FailsBy P k.blockType)
    (own : ∀ failure, k.Complaint h failure → P failure) : (k.snippet env h).FailsBy P := by
  cases k with
  | require =>
    refine (inputs.valueCode "VALUE" rfl _).bind ?_
    rintro value ⟨top, mid, answered⟩
    split
    · exact .pure _
    · rename_i present
      split
      · rename_i unread
        refine .fail (own _ (.literal answered ?_ unread))
        rintro rfl
        exact present rfl
      · split <;> exact .pure _
  | main =>
    exact (inputs.indentedCode "children" rfl).bind fun _ _ =>
      (env.failsBy_neededImports _).bind fun _ _ => .pure _
  | server =>
    exact (Gen.FailsBy.lift fun _ refused => own _ (.port refused)).bind fun _ _ =>
      (inputs.indentedCode "children" rfl).bind fun _ _ => (Gen.FailsBy.note _).bind fun _ _ =>
        (env.failsBy_neededImports _).bind fun _ _ => .pure _
  | routeGroup => exact (inputs.indentedCode "NAME" rfl).bind fun _ _ => .pure _
  | route =>
    exact (Gen.FailsBy.lift fun _ refused => own _ (.method refused)).bind fun _ _ =>
      (inputs.indentedCode "sub" rfl).bind fun _ _ => (Gen.FailsBy.note _).bind fun _ _ => .pure _
  | onStart => exact (inputs.sequenceCode "NAME" rfl).bind fun _ _ => .pure _
  | onShutdown => exact (inputs.indentedCode "NAME" rfl).bind fun _ _ => .pure _
  | line =>
    unfold snippet lineSnippet
    simp only
    split
    · exact .pure _
    · exact (Gen.FailsBy.note _).bind fun _ _ => .pure _
  | map => exact (inputs.indentedCode "ints" rfl).bind fun _ _ => .pure _
  | mapField => exact (inputs.valueCode "NAME" rfl _).bind fun _ _ => .pure _
  | handler =>
    unfold snippet handlerSnippet
    simp only
    split
    · exact .pure _
    · exact (Gen.FailsBy.note _).bind fun _ _ => .pure _
  | text => exact .pure _
  | number =>
    refine (Gen.FailsBy.lift fun _ unread => own _ (.number unread)).bind ?_
    rintro x ⟨top, mid, answered⟩
    split
    · exact .pure _
    · rename_i infinite
      exact .fail (own _ (.infinite (Gen.answers_lift.mp answered).1 infinite))
  | boolean => exact .pure _

end Builtin

theorem CallItem.failsBy_snippet (item : CallItem) (inputs : h.FailsBy P item.blockType) :
    (item.snippet h).FailsBy P := by
  have slots : ∀ p ∈ item.parameters, item.blockType.hasValue p.name = true :=
    fun p mem => CallItem.hasValue_iff.mpr ⟨p, mem, rfl⟩
  exact (inputs.arguments slots).bind fun _ _ => .pure _

theorem LiteralItem.failsBy_snippet (item : LiteralItem) (inputs : h.FailsBy P item.blockType) :
    (item.snippet h).FailsBy P := by
  have slots : ∀ p ∈ item.parameters, item.blockType.hasValue p.name = true :=
    fun p mem => LiteralItem.hasValue_iff.mpr ⟨p, mem, rfl⟩
  exact (inputs.arguments slots).bind fun _ _ => .pure _

/-! ### Blocks -/

/-- No code at all, or an expression: what may stand in a slot. -/
def Snippet.FitsSlot (s : Snippet) : Prop :=
  s.code = "" ∨ s.order.isSome

theorem Snippet.isSome_inSlot? {s : Snippet} {outer : Precedence} :
    (s.inSlot? outer).isSome ↔ s.FitsSlot := by
  unfold inSlot? FitsSlot
  rw [← String.isEmpty_iff]
  split
  · rename_i empty
    exact ⟨fun _ => .inl empty, fun _ => rfl⟩
  · rename_i present
    rw [Option.isSome_map, or_iff_right present]

namespace Compiler

variable {c : Compiler} {b : Block} {input : String}

theorem failsBy_compile
    (blamed : ∀ failure, (c.compile b).outcome = .error failure → P failure) :
    (c.compile b).FailsBy P := by
  refine ⟨c.steady_compile b, fun top failure failed => blamed failure ?_⟩
  rw [← run_fst c b [top]]
  exact Gen.error_of_map failed

/-- A slot fails because the block in it does, or because that block makes no value. -/
theorem failsBy_valueCode
    (generated : ∀ child, b.plugged? input = some child →
      ∀ failure, (c.compile child).outcome = .error failure → P failure)
    (fits : ∀ child s, b.plugged? input = some child → (c.compile child).outcome = .ok s →
      ¬ s.FitsSlot → P (.notValue child.id child.kind input b.id)) (outer : Precedence) :
    ((c.holder b).valueCode input outer).FailsBy P := by
  unfold Holder.valueCode
  rw [get?_holder_values]
  cases found : b.plugged? input with
  | none => exact .pure _
  | some child =>
    refine (failsBy_compile (generated child found)).bind ?_
    rintro s ⟨top, mid, answered⟩
    split
    · exact .pure _
    · rename_i stands
      refine .fail (fits child s found (compile_answers.mp answered).1 fun fit => ?_)
      have standing : (s.inSlot? outer).isSome := Snippet.isSome_inSlot?.mpr fit
      exact absurd stands (Option.isSome_iff_ne_none.mp standing)

theorem failsBy_codeOf {bs : List Block}
    (generated : ∀ child ∈ bs, ∀ failure, (c.compile child).outcome = .error failure →
      P failure) :
    (Holder.codeOf (bs.map c.compile)).FailsBy P := by
  induction bs with
  | nil => exact .pure _
  | cons child rest ih =>
    have others := ih fun other mem => generated other (List.mem_cons_of_mem _ mem)
    exact (failsBy_compile (generated child List.mem_cons_self)).bind fun _ _ =>
      others.bind fun _ _ => .pure _

/-- A statement input fails because one of the blocks in it does. -/
theorem failsBy_sequenceCode
    (generated : ∀ child ∈ b.sequenceIn input,
      ∀ failure, (c.compile child).outcome = .error failure → P failure) :
    ((c.holder b).sequenceCode input).FailsBy P := by
  unfold Holder.sequenceCode
  rw [getD_holder_statements]
  exact failsBy_codeOf generated

/-- A listed block fails because its generator does. -/
theorem blame_of_listed {listing : Listing} {failure : Failure}
    (listed : c.catalogue.get? b.kind = some listing)
    (fails : (listing.generator.snippet c.surroundings (c.holder b)).FailsBy P)
    (failed : (c.compile b).outcome = .error failure) : P failure := by
  rw [compile_of_listed listed, Gen.outcome_framed] at failed
  exact fails.blamed {} failure (Gen.error_of_map failed)

end Compiler

end Blockwork
