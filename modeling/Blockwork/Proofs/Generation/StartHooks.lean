import Blockwork.Proofs.Generation.Outcomes

/-!
# Start hooks are transparent

A start hook generates the statements in it and nothing else. It does so in a frame of its own,
but closing the frame hands on what the statements used, all at once instead of one after the
other. So a sequence may hold the statements in the place of the hook (`result_codeOf_hook`), and
by congruence so may any block that has the sequence in it, at any depth
(`Compiler.unwraps_alike`): the code, the packages and the imports in their order stay the same, or
the failure does.
-/

namespace Blockwork

/-! ### Taking a hook out of a tree -/

/-- The second block is the first one with the statements of one start hook in the place of the
hook, which stands in a statement input of the block or of a block inside it. -/
inductive Block.Unwraps : Block → Block → Prop where
  | here {b hook : Block} {name : String} {before after : List (String × List Block)}
      {front back : List Block} (hooked : hook.kind = Builtin.onStart.blockType.id)
      (held : b.statements = before ++ (name, front ++ hook :: back) :: after) :
      Unwraps b { b with
        statements := before ++ (name, front ++ hook.sequenceIn "NAME" ++ back) :: after }
  | value {b child child' : Block} {name : String} {before after : List (String × Block)}
      (held : b.values = before ++ (name, child) :: after) (inside : Unwraps child child') :
      Unwraps b { b with values := before ++ (name, child') :: after }
  | statement {b child child' : Block} {name : String}
      {before after : List (String × List Block)} {front back : List Block}
      (held : b.statements = before ++ (name, front ++ child :: back) :: after)
      (inside : Unwraps child child') :
      Unwraps b { b with statements := before ++ (name, front ++ child' :: back) :: after }

/-- Changing one entry changes what is found under its name, or nothing. -/
theorem Entries.get?_change {α : Type} {name : String} (x x' : α)
    {before after : List (String × α)} (key : String) :
    get? key (before ++ (name, x) :: after) = get? key (before ++ (name, x') :: after) ∨
      (get? key (before ++ (name, x) :: after) = some x ∧
        get? key (before ++ (name, x') :: after) = some x') := by
  induction before with
  | nil =>
    by_cases here : name = key
    · exact .inr ⟨by simp [get?, here], by simp [get?, here]⟩
    · exact .inl (by simp [get?, here])
  | cons first rest ih =>
    obtain ⟨other, value⟩ := first
    by_cases here : other = key
    · exact .inl (by simp [get?, here])
    · simpa [get?, here] using ih

/-- Changing one statement input changes the sequence in it, or none. -/
theorem Block.sequenceIn_change {b : Block} {name : String} {bs : List Block}
    {before after : List (String × List Block)}
    (held : b.statements = before ++ (name, bs) :: after) (bs' : List Block) (input : String) :
    let b' := { b with statements := before ++ (name, bs') :: after }
    b.sequenceIn input = b'.sequenceIn input ∨
      (b.sequenceIn input = bs ∧ b'.sequenceIn input = bs') := by
  unfold sequenceIn
  rw [held]
  rcases Entries.get?_change bs bs' input with same | ⟨first, second⟩
  · exact .inl (by rw [same])
  · exact .inr ⟨by rw [first]; rfl, by rw [second]; rfl⟩

/-! ### The usage of a sequence -/

theorem Compiler.usageAfter_append (a b : Usage) (snippets : List Snippet) :
    usageAfter (a ++ b) snippets = a ++ usageAfter b snippets := by
  unfold usageAfter
  induction snippets generalizing b with
  | nil => rfl
  | cons s rest ih => rw [List.foldl_cons, List.foldl_cons, Usage.append_assoc, ih]

/-- The stack behind snippets whose usages were added to its top one after the other. -/
def Gen.stackAfter (frames : List Usage) (snippets : List Snippet) : List Usage :=
  snippets.foldl (fun frames s => addToTop s.usage frames) frames

theorem Gen.stackAfter_cons (top : Usage) (outer : List Usage) (snippets : List Snippet) :
    stackAfter (top :: outer) snippets = Compiler.usageAfter top snippets :: outer := by
  unfold stackAfter Compiler.usageAfter
  induction snippets generalizing top with
  | nil => rfl
  | cons s rest ih => exact ih (top ++ s.usage)

theorem Gen.stackAfter_nil (snippets : List Snippet) : stackAfter [] snippets = [] := by
  unfold stackAfter
  induction snippets with
  | nil => rfl
  | cons s rest ih => exact ih

theorem Gen.stackAfter_append (frames : List Usage) (first second : List Snippet) :
    stackAfter frames (first ++ second) = stackAfter (stackAfter frames first) second :=
  List.foldl_append

/-- Usages may be added to a stack one after the other, or together in a frame of their own. -/
theorem Gen.addToTop_usageAfter (frames : List Usage) (snippets : List Snippet) :
    addToTop ({} ++ Compiler.usageAfter {} snippets) frames = stackAfter frames snippets := by
  cases frames with
  | nil => exact (stackAfter_nil snippets).symm
  | cons top outer =>
    have joined : top ++ (({} : Usage) ++ Compiler.usageAfter {} snippets) =
        Compiler.usageAfter top snippets := by
      rw [← Usage.append_assoc, Usage.append_empty, ← Compiler.usageAfter_append,
        Usage.append_empty]
    rw [stackAfter_cons, addToTop, joined]

namespace Compiler

variable {c : Compiler} {hook : Block}

/-! ### A hook in a sequence -/

theorem result_compile (c : Compiler) (b : Block) (frames : List Usage) :
    (c.compile b).result frames =
      (c.compile b).outcome.map fun s => (s, Gen.addToTop s.usage frames) := by
  unfold Gen.result
  rw [compile_run]
  cases (c.compile b).outcome <;> rfl

theorem sequenceCode_holder (c : Compiler) (b : Block) (input : String) :
    (c.holder b).sequenceCode input = Holder.codeOf ((b.sequenceIn input).map c.compile) := by
  rw [Holder.sequenceCode, getD_holder_statements]

/-- On any stack, a sequence fails as the first of its blocks that fails, or puts the codes
together and adds the usages to the stack. -/
theorem result_codeOf (c : Compiler) (bs : List Block) (frames : List Usage) :
    (Holder.codeOf (bs.map c.compile)).result frames =
      (c.snippets bs).map fun all =>
        (String.join (all.map (·.code)), Gen.stackAfter frames all) := by
  induction bs generalizing frames with
  | nil => rfl
  | cons b rest ih =>
    rw [List.map_cons, Holder.codeOf, Gen.result_bind, result_compile, snippets, List.mapM_cons]
    cases (c.compile b).outcome with
    | error failure => rfl
    | ok s =>
      show (Holder.codeOf (rest.map c.compile) >>= fun code => pure (s.code ++ code)).result
        (Gen.addToTop s.usage frames) = _
      rw [Gen.result_bind, ih, snippets]
      cases rest.mapM fun b => (c.compile b).outcome with
      | error failure => rfl
      | ok all =>
        show Except.ok (s.code ++ String.join (all.map (·.code)), _) =
          Except.ok (String.join (s.code :: all.map (·.code)), _)
        rw [String.join_cons]
        rfl

variable {listing : Listing} (own : listing.generator = .builtin .onStart)
  (listed : c.catalogue.get? hook.kind = some listing)

include own listed

/-- A hook makes one snippet of those in it. -/
theorem outcome_hook :
    (c.compile hook).outcome = (c.snippets (hook.sequenceIn "NAME")).map fun all =>
      { code := String.join (all.map (·.code)), usage := {} ++ usageAfter {} all } := by
  have action : listing.generator.snippet c.surroundings (c.holder hook) =
      Holder.codeOf ((hook.sequenceIn "NAME").map c.compile) >>= fun code =>
        pure (.inLines code) := by
    rw [own, ← sequenceCode_holder]
    rfl
  rw [compile_of_listed listed, action, Gen.outcome_eq, Gen.result_framed, Gen.result_bind,
    result_codeOf]
  cases c.snippets (hook.sequenceIn "NAME") with
  | error failure => rfl
  | ok all =>
    have frame : Gen.stackAfter [{}] all = [usageAfter {} all] := Gen.stackAfter_cons {} [] all
    simp only [Except.map, Except.bind, frame]
    rfl

/-- The statements of a hook stand for the hook in a sequence, wherever the sequence stands. -/
theorem result_codeOf_hook (front back : List Block) (frames : List Usage) :
    (Holder.codeOf ((front ++ hook :: back).map c.compile)).result frames =
      (Holder.codeOf ((front ++ hook.sequenceIn "NAME" ++ back).map c.compile)).result frames := by
  have split : ∀ xs ys : List Block, c.snippets (xs ++ ys) = do
      return (← c.snippets xs) ++ (← c.snippets ys) := fun _ _ => List.mapM_append
  have first : c.snippets (hook :: back) = do
      return (← (c.compile hook).outcome) :: (← c.snippets back) := List.mapM_cons
  rw [result_codeOf, result_codeOf, split, split, split, first, outcome_hook own listed]
  cases c.snippets front with
  | error failure => rfl
  | ok before =>
    cases c.snippets (hook.sequenceIn "NAME") with
    | error failure => rfl
    | ok held =>
      cases c.snippets back with
      | error failure => rfl
      | ok after =>
        let whole : Snippet :=
          { code := String.join (held.map (·.code)), usage := {} ++ usageAfter {} held }
        have codes : String.join ((before ++ whole :: after).map (·.code)) =
            String.join ((before ++ held ++ after).map (·.code)) := by
          simp [whole]
        have stacked : Gen.stackAfter frames (before ++ whole :: after) =
            Gen.stackAfter frames (before ++ held ++ after) := by
          rw [Gen.stackAfter_append, Gen.stackAfter_append, Gen.stackAfter_append,
            ← Gen.addToTop_usageAfter _ held]
          rfl
        exact congrArg Except.ok (Prod.ext codes stacked)

end Compiler

/-! ### A hook in a tree -/

/-- Going on with the same answer gives the same. -/
theorem OutcomeCongruence.eq :
    OutcomeCongruence fun {_} outcome outcome' => outcome = outcome' where
  ok _ := rfl
  bind first rest := by rw [first, funext rest]

namespace Compiler

variable {c : Compiler} {b b' : Block} {listing : Listing}

/-- The second block is generated as the first one is, and has its name and its type. -/
structure Alike (c : Compiler) (b b' : Block) : Prop where
  id : b.id = b'.id
  kind : b.kind = b'.kind
  lifted : Gen.Lifted (fun {_} x y => x = y) (c.compile b) (c.compile b')

namespace Alike

theorem refl (c : Compiler) (b : Block) : c.Alike b b := ⟨rfl, rfl, fun _ => rfl⟩

theorem fill (alike : c.Alike b b') {outer outer' : Block} (ids : outer.id = outer'.id)
    (input : String) :
    FillAlike (Gen.Lifted fun {_} x y => x = y) c c outer outer' input b b' := by
  refine ⟨alike.lifted, fun frames => ?_⟩
  rw [alike.id, alike.kind, ids]

/-- Blocks of one type are generated alike when they agree in their fields, and what is in their
slots and inputs is generated alike. -/
theorem of_inputs (ids : b.id = b'.id) (kinds : b.kind = b'.kind) (fields : b.fields = b'.fields)
    (values : ∀ input, Option.Rel c.Alike (b.plugged? input) (b'.plugged? input))
    (statements : ∀ input frames,
      (Holder.codeOf ((b.sequenceIn input).map c.compile)).result frames =
        (Holder.codeOf ((b'.sequenceIn input).map c.compile)).result frames) :
    c.Alike b b' := by
  refine ⟨ids, kinds, ?_⟩
  have congruence := Gen.congruence_lifted .eq
  cases listed : c.catalogue.get? b.kind with
  | none =>
    have listed' : c.catalogue.get? b'.kind = none := kinds ▸ listed
    rw [compile_of_unlisted listed, compile_of_unlisted listed', kinds]
    exact fun _ => rfl
  | some listing =>
    refine lifted_of_listed .eq listed (kinds ▸ listed) rfl ⟨?_, ?_, ?_, ?_, ?_⟩
    · intro name _
      show Entries.get? name b.fields = Entries.get? name b'.fields
      rw [fields]
    · intro name _
      have slots := values name
      refine related_valueCode congruence ?_
      generalize b.plugged? name = slot, b'.plugged? name = slot' at slots ⊢
      cases slots with
      | none => exact .none
      | some alike => exact .some (alike.fill ids name)
    · intro name _ frames
      rw [sequenceCode_holder, sequenceCode_holder]
      exact statements name frames
    · intro α name fault frames
      rw [block_holder, block_holder, ids]
    · intro α name frames
      rw [block_holder, block_holder, ids]

end Alike

/-- A block is generated alike with the statements of a hook in the place of the hook: the step is
the sequence that the hook stands in, and everything around it keeps it. -/
theorem alike_of_unwraps (listed : c.catalogue.get? Builtin.onStart.blockType.id = some listing)
    (own : listing.generator = .builtin .onStart) (unwraps : b.Unwraps b') : c.Alike b b' := by
  have same : ∀ slot : Option Block, Option.Rel c.Alike slot slot := by
    intro slot
    cases slot with
    | none => exact .none
    | some child => exact .some (.refl c child)
  induction unwraps with
  | @here b hook name before after front back hooked held =>
    refine .of_inputs rfl rfl rfl (fun input => same _) fun input frames => ?_
    have listed : c.catalogue.get? hook.kind = some listing := hooked ▸ listed
    rcases Block.sequenceIn_change held _ input with kept | ⟨old, new⟩
    · rw [kept]
    · rw [old, new]
      exact result_codeOf_hook own listed front back frames
  | @value b child child' name before after held inside alike =>
    refine .of_inputs rfl rfl rfl (fun input => ?_) fun input frames => rfl
    unfold Block.plugged?
    rw [held]
    rcases Entries.get?_change child child' input with kept | ⟨old, new⟩
    · rw [kept]
      exact same _
    · rw [old, new]
      exact .some alike
  | @statement b child child' name before after front back held inside alike =>
    refine .of_inputs rfl rfl rfl (fun input => same _) fun input frames => ?_
    rcases Block.sequenceIn_change held _ input with kept | ⟨old, new⟩
    · rw [kept]
    · rw [old, new]
      have standing : List.Forall₂ (Gen.Lifted fun {_} x y => x = y)
          ((front ++ child :: back).map c.compile) ((front ++ child' :: back).map c.compile) := by
        have refl : ∀ bs : List Block, List.Forall₂ (Gen.Lifted fun {_} x y => x = y)
            (bs.map c.compile) (bs.map c.compile) := fun bs =>
          List.forall₂_same.mpr fun _ _ _ => rfl
        rw [List.map_append, List.map_append]
        exact List.rel_append (refl front) (.cons alike.lifted (refl back))
      exact Holder.related_codeOf (Gen.congruence_lifted .eq) standing frames

/-- **Start hooks are transparent.** Where the type of start hooks is the built-in one, whatever the
other types are, and with any settings: a tree in which the statements of a start hook stand in the
place of the hook answers on every stack what the tree with the hook answers. That is the same
code, with the same packages and the same imports in the same order, or the same failure; and it
leaves the same stack. -/
theorem run_of_unwraps (listed : c.catalogue.get? Builtin.onStart.blockType.id = some listing)
    (own : listing.generator = .builtin .onStart) (unwraps : b.Unwraps b')
    (frames : List Usage) : (c.compile b).run frames = (c.compile b').run frames := by
  have alike := alike_of_unwraps listed own unwraps
  have outcomes : (c.compile b).outcome = (c.compile b').outcome := alike.lifted.outcome .eq
  show c.compile b frames = c.compile b' frames
  rw [compile_run, compile_run, outcomes]

/-- A hook with a line in it, between two lines of the main function. -/
theorem run_of_unwraps_in_main :
    let line (text : String) : Block :=
      { id := text, kind := "go", fields := [("line", .text text)] }
    let hook : Block := { id := "s", kind := "on_start", statements := [("NAME", [line "two()"])] }
    let main (children : List Block) : Block :=
      { id := "m", kind := "main", statements := [("children", children)] }
    let c : Compiler := { catalogue := .ofBuiltins }
    c.catalogue.get? Builtin.onStart.blockType.id =
        some ⟨Builtin.onStart.blockType, .builtin .onStart⟩ ∧
      (c.compile (main [line "one()", hook, line "three()"])).run [] =
        (c.compile (main [line "one()", line "two()", line "three()"])).run [] := by
  intro line hook main c
  have listed : c.catalogue.get? Builtin.onStart.blockType.id =
      some ⟨Builtin.onStart.blockType, .builtin .onStart⟩ :=
    Catalogue.get?_ofBuiltins_id .onStart
  have held : (main [line "one()", hook, line "three()"]).statements =
      [] ++ ("children", [line "one()"] ++ hook :: [line "three()"]) :: [] := rfl
  have unwraps : (main [line "one()", hook, line "three()"]).Unwraps
      (main [line "one()", line "two()", line "three()"]) := .here rfl held
  exact ⟨listed, run_of_unwraps listed rfl unwraps []⟩

end Compiler

end Blockwork
