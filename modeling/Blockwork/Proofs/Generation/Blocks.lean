import Blockwork.Proofs.Block.Induction
import Blockwork.Proofs.Generation.Congruence
import Blockwork.Proofs.Generation.Frames
import Blockwork.SourceFile

/-!
# Blocks are generated steadily

Every generator is steady when the actions of the blocks in its inputs are, so by induction over
blocks each block is (`steady_compile`), and its place in the stack does not matter
(`compile_run`). What a generator sees of its inputs is then told by the outcomes of the blocks
in them: `valueCode_answers` for a value slot, `sequenceCode_answers` for a statement input.
-/

namespace Blockwork

/-! ### Generators -/

/-- Steadiness is a relation between an action and itself. -/
theorem Gen.congruence_steady : Gen.Congruence fun {α} (action _ : Gen α) => action.Steady where
  pure := .pure
  note := .note
  noted := .noted
  bind first rest := first.bind rest

theorem Holder.Steady.related {h : Holder} (steady : h.Steady) (t : BlockType) :
    Related (fun {_} action _ => action.Steady) t h h where
  scalar? _ _ := rfl
  valueCode name _ := steady.valueCode name
  sequenceCode name _ := steady.sequenceCode name
  badField _ _ := .fail _
  missingField _ := .fail _

theorem Generator.steady_snippet {h : Holder} (steady : h.Steady) (env : Surroundings)
    (g : Generator) : (g.snippet env h).Steady :=
  g.related Gen.congruence_steady (steady.related g.blockType)

/-! ### The inputs of a block -/

namespace Compiler

variable {c : Compiler} {b child : Block} {input : String}

@[simp] theorem block_holder (c : Compiler) (b : Block) : (c.holder b).block = b := rfl

theorem get?_plugs (c : Compiler) (input : String) (values : List (String × Block)) :
    Entries.get? input (c.plugs values) =
      (Entries.get? input values).map fun child => ⟨child, c.compile child⟩ := by
  induction values with
  | nil => rfl
  | cons entry rest ih =>
    obtain ⟨name, child⟩ := entry
    rw [plugs, Entries.get?, Entries.get?, ih]
    split <;> rfl

theorem get?_inputs (c : Compiler) (input : String) (statements : List (String × List Block)) :
    Entries.get? input (c.inputs statements) =
      (Entries.get? input statements).map (List.map c.compile) := by
  induction statements with
  | nil => rfl
  | cons entry rest ih =>
    obtain ⟨name, bs⟩ := entry
    rw [inputs, Entries.get?, Entries.get?, ih, sequence_eq_map]
    split <;> rfl

theorem get?_holder_values (c : Compiler) (b : Block) (input : String) :
    Entries.get? input (c.holder b).values =
      (b.plugged? input).map fun child => ⟨child, c.compile child⟩ :=
  get?_plugs c input b.values

theorem getD_holder_statements (c : Compiler) (b : Block) (input : String) :
    (Entries.get? input (c.holder b).statements).getD [] =
      (b.sequenceIn input).map c.compile := by
  show (Entries.get? input (c.inputs b.statements)).getD [] = _
  rw [get?_inputs, Block.sequenceIn]
  cases Entries.get? input b.statements <;> rfl

/-- A block of a listed type is generated in a frame of its own. -/
theorem compile_of_listed {listing : Listing} (listed : c.catalogue.get? b.kind = some listing) :
    c.compile b =
      Gen.framed (listing.generator.snippet c.surroundings (c.holder b)) := by
  rw [compile_eq, compileHolder]
  simp only [block_holder, listed]

/-- A block of an unlisted type fails or generates nothing. -/
theorem compile_of_unlisted (unlisted : c.catalogue.get? b.kind = none) :
    c.compile b = if c.strict then Gen.fail (.unlisted b.kind) else pure {} := by
  rw [compile_eq, compileHolder]
  simp only [block_holder, unlisted]

/-- The holder of a block is steady as soon as the blocks in its inputs are. -/
theorem steady_holder_of
    (values : ∀ input child, b.plugged? input = some child → (c.compile child).Steady)
    (statements : ∀ input, ∀ child ∈ b.sequenceIn input, (c.compile child).Steady) :
    (c.holder b).Steady := by
  refine ⟨fun input plug found => ?_, fun input action mem => ?_⟩
  · rw [get?_holder_values] at found
    obtain ⟨child, plugged, rfl⟩ := Option.map_eq_some_iff.mp found
    exact values input child plugged
  · rw [getD_holder_statements] at mem
    obtain ⟨child, inside, rfl⟩ := List.mem_map.mp mem
    exact statements input child inside

theorem steady_compile (c : Compiler) (b : Block) : (c.compile b).Steady := by
  induction b using Block.induction with
  | step b values statements =>
    cases listed : c.catalogue.get? b.kind with
    | some listing =>
      rw [compile_of_listed listed]
      have steady := steady_holder_of values statements
      exact (listing.generator.steady_snippet steady _).framed
    | none =>
      rw [compile_of_unlisted listed]
      split
      · exact .fail _
      · exact .pure _

theorem steady_holder (c : Compiler) (b : Block) : (c.holder b).Steady :=
  steady_holder_of (fun _ child _ => c.steady_compile child)
    (fun _ child _ => c.steady_compile child)

/-- A block answers the same on every stack. A failure leaves the stack as it was; an answer
adds the usage of the snippet to the top. -/
theorem compile_run (c : Compiler) (b : Block) (frames : List Usage) :
    c.compile b frames =
      match (c.compile b).outcome with
      | .ok s => (.ok s, Gen.addToTop s.usage frames)
      | .error failure => (.error failure, frames) := by
  cases listed : c.catalogue.get? b.kind with
  | some listing =>
    rw [compile_of_listed listed]
    exact Gen.framed_run (listing.generator.steady_snippet (c.steady_holder b) _) frames
  | none =>
    rw [compile_of_unlisted listed]
    cases c.strict with
    | true => rfl
    | false => cases frames <;> rfl

/-- What a block answers does not depend on the stack. -/
theorem run_fst (c : Compiler) (b : Block) (frames : List Usage) :
    ((c.compile b).run frames).1 = (c.compile b).outcome := by
  show (c.compile b frames).1 = _
  rw [compile_run]
  cases (c.compile b).outcome <;> rfl

/-- What a block answers on any stack, it answers outside of any block. -/
theorem outcome_of_run {frames : List Usage} {s : Snippet}
    (made : ((c.compile b).run frames).1 = .ok s) : (c.compile b).outcome = .ok s :=
  (run_fst c b frames).symm.trans made

/-! ### Answers of blocks -/

variable {top after : Usage} {s : Snippet}

/-- Inside another block, a block answers what it answers on its own, and its usage is added to
the frame. -/
theorem compile_answers :
    (c.compile b).Answers top s after ↔
      (c.compile b).outcome = .ok s ∧ after = top ++ s.usage := by
  unfold Gen.Answers Gen.onTop
  rw [compile_run c b [top]]
  cases (c.compile b).outcome with
  | error failure => simp [Except.map]
  | ok answer => simp [Except.map, Gen.addToTop]; grind

/-- The outcome of a listed block is the snippet of its generator with the usage of its frame. -/
theorem outcome_of_listed {listing : Listing}
    (listed : c.catalogue.get? b.kind = some listing) :
    (c.compile b).outcome = .ok s ↔
      ∃ own inner, (listing.generator.snippet c.surroundings (c.holder b)).Answers {} own inner ∧
        s = { own with usage := own.usage ++ inner } := by
  rw [compile_of_listed listed, Gen.outcome_framed_eq_ok]

/-- In lenient mode a block of an unlisted type generates the empty snippet; in strict mode it
generates none. -/
theorem outcome_of_unlisted (unlisted : c.catalogue.get? b.kind = none) :
    (c.compile b).outcome = .ok s ↔ c.strict = false ∧ s = {} := by
  rw [compile_of_unlisted unlisted]
  cases c.strict with
  | true => simp [Gen.outcome, Gen.run]
  | false => simp [Gen.outcome, Gen.run, eq_comm]

/-- In strict mode the types of generated blocks are listed. -/
theorem listed_of_generated (strict : c.strict = true) (made : (c.compile b).outcome = .ok s) :
    ∃ listing, c.catalogue.get? b.kind = some listing := by
  cases listed : c.catalogue.get? b.kind with
  | some listing => exact ⟨listing, rfl⟩
  | none =>
    have lenient := ((outcome_of_unlisted listed).mp made).1
    rw [strict] at lenient
    exact nomatch lenient

variable {input code : String} {outer : Precedence}
  {top after : Usage}

/-- The code of a value slot is that of the snippet of the block in it, if there is one. -/
theorem valueCode_answers :
    ((c.holder b).valueCode input outer).Answers top code after ↔
      (b.plugged? input = none ∧ code = "" ∧ after = top) ∨
      ∃ child s, b.plugged? input = some child ∧ (c.compile child).outcome = .ok s ∧
        s.inSlot? outer = some code ∧ after = top ++ s.usage := by
  unfold Holder.valueCode
  rw [get?_holder_values]
  cases b.plugged? input with
  | none => simp
  | some child =>
    simp only [Option.map_some, Gen.answers_bind (c.steady_compile child), compile_answers,
      reduceCtorEq, false_and, false_or, Option.some.injEq]
    constructor
    · rintro ⟨s, mid, ⟨generated, rfl⟩, answered⟩
      cases stands : s.inSlot? outer with
      | none => simp [stands] at answered
      | some text =>
        simp only [stands] at answered
        obtain ⟨rfl, rfl⟩ := Gen.answers_pure.mp answered
        exact ⟨child, s, rfl, generated, stands, rfl⟩
    · rintro ⟨_, s, rfl, generated, stands, rfl⟩
      refine ⟨s, _, ⟨generated, rfl⟩, ?_⟩
      rw [stands]
      exact Gen.answers_pure.mpr ⟨rfl, rfl⟩

/-- The usages of snippets, added to a frame one after the other. -/
def usageAfter (top : Usage) (snippets : List Snippet) : Usage :=
  snippets.foldl (fun usage s => usage ++ s.usage) top

theorem snippets_nil : c.snippets [] = .ok [] := rfl

theorem snippets_cons {bs : List Block} {all : List Snippet} :
    c.snippets (b :: bs) = .ok all ↔
      ∃ s rest, (c.compile b).outcome = .ok s ∧ c.snippets bs = .ok rest ∧
        all = s :: rest := by
  simp only [snippets, List.mapM_cons]
  cases (c.compile b).outcome with
  | error failure => simp [bind, Except.bind]
  | ok s =>
    cases List.mapM (fun b => (c.compile b).outcome) bs with
    | error failure => simp [bind, Except.bind]
    | ok rest => simp [bind, Except.bind, pure, Except.pure, eq_comm]

theorem snippets_append {bs others : List Block} {all : List Snippet} :
    c.snippets (bs ++ others) = .ok all ↔
      ∃ first second, c.snippets bs = .ok first ∧ c.snippets others = .ok second ∧
        all = first ++ second := by
  induction bs generalizing all with
  | nil =>
    constructor
    · exact fun made => ⟨[], all, rfl, made, rfl⟩
    · rintro ⟨first, second, ⟨⟩, made, rfl⟩
      exact made
  | cons b rest ih =>
    simp only [List.cons_append, snippets_cons, ih]
    constructor
    · rintro ⟨s, _, generated, ⟨first, second, done, made, rfl⟩, rfl⟩
      exact ⟨s :: first, second, ⟨s, first, generated, done, rfl⟩, made, rfl⟩
    · rintro ⟨_, second, ⟨s, first, generated, done, rfl⟩, made, rfl⟩
      exact ⟨s, first ++ second, generated, ⟨first, second, done, made, rfl⟩, rfl⟩

/-- Each snippet of a sequence is that of one of its blocks. -/
theorem mem_of_snippets {bs : List Block} {all : List Snippet} (made : c.snippets bs = .ok all)
    (mem : s ∈ all) : ∃ b ∈ bs, (c.compile b).outcome = .ok s := by
  induction bs generalizing all with
  | nil =>
    cases made
    exact absurd mem List.not_mem_nil
  | cons b rest ih =>
    obtain ⟨first, others, generated, done, rfl⟩ := snippets_cons.mp made
    rcases List.mem_cons.mp mem with rfl | later
    · exact ⟨b, List.mem_cons_self, generated⟩
    · obtain ⟨child, standing, found⟩ := ih done later
      exact ⟨child, List.mem_cons_of_mem _ standing, found⟩

/-- Each block of a sequence has a snippet among those of the sequence. -/
theorem snippet_of_mem {bs : List Block} {all : List Snippet} (made : c.snippets bs = .ok all)
    (mem : b ∈ bs) : ∃ s ∈ all, (c.compile b).outcome = .ok s := by
  induction bs generalizing all with
  | nil => exact absurd mem List.not_mem_nil
  | cons first rest ih =>
    obtain ⟨s, others, generated, done, rfl⟩ := snippets_cons.mp made
    rcases List.mem_cons.mp mem with rfl | later
    · exact ⟨s, List.mem_cons_self, generated⟩
    · obtain ⟨t, inside, found⟩ := ih done later
      exact ⟨t, List.mem_cons_of_mem _ inside, found⟩

/-- A sequence of blocks answers when each block does, with their codes put together. -/
theorem codeOf_answers (bs : List Block) :
    (Holder.codeOf (bs.map c.compile)).Answers top code after ↔
      ∃ snippets, c.snippets bs = .ok snippets ∧
        code = String.join (snippets.map (·.code)) ∧ after = usageAfter top snippets := by
  induction bs generalizing top code after with
  | nil =>
    rw [List.map_nil, Holder.codeOf, Gen.answers_pure, snippets_nil]
    constructor
    · rintro ⟨rfl, rfl⟩
      exact ⟨[], rfl, rfl, rfl⟩
    · rintro ⟨_, ⟨⟩, rfl, rfl⟩
      exact ⟨rfl, rfl⟩
  | cons b rest ih =>
    have steady : (Holder.codeOf (rest.map c.compile)).Steady :=
      Holder.steady_codeOf fun action mem => by
        obtain ⟨child, -, rfl⟩ := List.mem_map.mp mem
        exact c.steady_compile child
    simp only [List.map_cons, Holder.codeOf, Gen.answers_bind (c.steady_compile b),
      Gen.answers_bind steady, compile_answers, ih, Gen.answers_pure, snippets_cons]
    constructor
    · rintro ⟨s, mid, ⟨generated, rfl⟩, code', last, ⟨others, done, rfl, rfl⟩, rfl, rfl⟩
      exact ⟨s :: others, ⟨s, others, generated, done, rfl⟩, by simp, rfl⟩
    · rintro ⟨_, ⟨s, others, generated, done, rfl⟩, rfl, rfl⟩
      exact ⟨s, _, ⟨generated, rfl⟩, _, _, ⟨others, done, rfl, rfl⟩, by simp, rfl⟩

theorem sequenceCode_answers :
    ((c.holder b).sequenceCode input).Answers top code after ↔
      ∃ snippets, c.snippets (b.sequenceIn input) = .ok snippets ∧
        code = String.join (snippets.map (·.code)) ∧ after = usageAfter top snippets := by
  rw [Holder.sequenceCode, getD_holder_statements, codeOf_answers]

theorem indentedCode_answers {env : Surroundings} :
    ((c.holder b).indentedCode env input).Answers top code after ↔
      ∃ snippets, c.snippets (b.sequenceIn input) = .ok snippets ∧
        code = Text.indent env.indent (String.join (snippets.map (·.code))) ∧
        after = usageAfter top snippets := by
  simp only [Holder.indentedCode, Gen.answers_bind ((c.steady_holder b).sequenceCode input),
    sequenceCode_answers, Gen.answers_pure]
  grind

end Compiler

end Blockwork
