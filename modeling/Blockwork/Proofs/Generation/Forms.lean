import Blockwork.Proofs.Decimal.NumberText
import Blockwork.Proofs.Generation.Answers
import Blockwork.Proofs.Catalogue.Loaded
import Blockwork.Proofs.Snippet.Usage
import Blockwork.Proofs.Source.Literals

/-!
# The form of snippets

Two things can be told of the snippet of a block without generating it:

* **whether it is an expression** — values, and no other blocks, generate expressions
  (`Compiler.isExpression_iff`);
* **whether it has code** — blocks of four built-ins can be generated without any: require blocks
  always are, lines and handlers when they are left blank, and blocks for the start when they hold
  nothing but such blocks (`Catalogue.Silent`). In strict mode there are no others
  (`Compiler.code_eq_empty_iff`), since every other template has text of its own.
-/

namespace Blockwork

variable {h : Holder} {env : Surroundings} {top after : Usage} {own : Snippet}

/-! ### Templates -/

theorem Text.append_ne_empty {a b : String} (shown : b ≠ "") : a ++ b ≠ "" :=
  fun none => shown (String.append_eq_empty_iff.mp none).2

theorem CallItem.code_ne_empty (item : CallItem) (arguments : List (Parameter × String)) :
    item.code arguments ≠ "" := by
  unfold code
  split <;> exact Text.append_ne_empty (by decide)

theorem LiteralItem.code_ne_empty (item : LiteralItem) (address : Bool)
    (arguments : List (Parameter × String)) : item.code address arguments ≠ "" :=
  Text.append_ne_empty (by decide)

namespace Builtin

theorem mapCode_ne_empty (entries : String) : mapCode entries ≠ "" := by
  unfold mapCode
  split
  · decide
  · exact Text.append_ne_empty (by decide)

/-- A built-in writes no text of its own: it never does, or has been left blank. -/
def Bare (b : Block) : Builtin → Prop
  | require => True
  | onStart => True
  | line => Text.isBlankText (b.textD "line" "") = true
  | handler => (Text.trim (b.textD "func" "")).isEmpty = true
  | _ => False

/-- How the snippet of a built-in looks: blocks for the start have the code of others, the others
have none only if they write nothing themselves, and values are expressions. -/
structure Looks (b : Block) (own : Snippet) (k : Builtin) : Prop where
  code : k ≠ onStart → (own.code = "" ↔ k.Bare b)
  order : own.order.isSome ↔ k.blockType.shape = .value

variable {b : Block} {k : Builtin}

theorem Looks.of_bare (bare : k.Bare b) (code : own.code = "") (order : own.order = none)
    (other : k.blockType.shape ≠ .value) : Looks b own k :=
  ⟨fun _ => iff_of_true code bare, iff_of_false (order ▸ nofun) other⟩

theorem Looks.of_lines (writes : ¬ k.Bare b) (code : own.code ≠ "") (order : own.order = none)
    (other : k.blockType.shape ≠ .value) : Looks b own k :=
  ⟨fun _ => iff_of_false code writes, iff_of_false (order ▸ nofun) other⟩

theorem Looks.of_expression (writes : ¬ k.Bare b) (code : own.code ≠ "")
    (order : own.order.isSome) (value : k.blockType.shape = .value) : Looks b own k :=
  ⟨fun _ => iff_of_false code writes, iff_of_true order value⟩

theorem looks_of_answers (steady : h.Steady)
    (answered : (k.snippet env h).Answers top own after) : k.Looks h.block own := by
  cases k with
  | require =>
    obtain ⟨value, -, ⟨-, rfl⟩ | ⟨path, -, -, rfl⟩⟩ := (require_answers steady).mp answered
    · exact .of_bare trivial rfl rfl nofun
    · split <;> exact .of_bare trivial rfl rfl nofun
  | onStart =>
    obtain ⟨code, -, rfl⟩ := (onStart_answers steady).mp answered
    exact ⟨fun other => absurd rfl other, iff_of_false nofun nofun⟩
  | line =>
    have made := line_answers.mp answered
    split at made
    · rename_i blank
      obtain ⟨rfl, -⟩ := made
      exact .of_bare blank rfl rfl nofun
    · rename_i shown
      obtain ⟨rfl, -⟩ := made
      exact .of_lines shown (Text.append_ne_empty (by decide)) rfl nofun
  | handler =>
    have made := handler_answers.mp answered
    split at made
    · rename_i blank
      obtain ⟨rfl, -⟩ := made
      exact .of_bare blank rfl rfl nofun
    · rename_i shown
      obtain ⟨rfl, -⟩ := made
      exact .of_lines shown (Text.append_ne_empty (by decide)) rfl nofun
  -- The other templates end in text of their own.
  | main =>
    obtain ⟨body, -, rfl⟩ := (main_answers steady).mp answered
    exact .of_lines id (Text.append_ne_empty (by decide)) rfl nofun
  | server =>
    obtain ⟨port, body, inner, -, -, -, rfl⟩ := (server_answers steady).mp answered
    exact .of_lines id (Text.append_ne_empty (by decide)) rfl nofun
  | routeGroup =>
    obtain ⟨routes, -, rfl⟩ := (routeGroup_answers steady).mp answered
    exact .of_lines id (Text.append_ne_empty (by decide)) rfl nofun
  | route =>
    obtain ⟨method, inner, mid, -, -, -, rfl⟩ := (route_answers steady).mp answered
    exact .of_lines id (Text.append_ne_empty (by decide)) rfl nofun
  | onShutdown =>
    obtain ⟨hooks, -, rfl⟩ := (onShutdown_answers steady).mp answered
    exact .of_lines id (Text.append_ne_empty (by decide)) rfl nofun
  | map =>
    obtain ⟨entries, -, rfl⟩ := (map_answers steady).mp answered
    exact .of_expression id (mapCode_ne_empty entries) rfl rfl
  | mapField =>
    obtain ⟨value, -, rfl⟩ := (mapField_answers steady).mp answered
    exact .of_lines id (Text.append_ne_empty (by decide)) rfl nofun
  | text =>
    obtain ⟨rfl, -⟩ := text_answers.mp answered
    exact .of_expression id (Source.quote_ne_empty _) rfl rfl
  | number =>
    obtain ⟨x, -, -, rfl, -⟩ := number_answers.mp answered
    exact .of_expression id x.numberText_ne_empty rfl rfl
  | boolean =>
    obtain ⟨rfl, -⟩ := boolean_answers.mp answered
    have written : (if h.block.flagD "BOOL" true then "true" else "false") ≠ "" := by
      split <;> decide
    exact .of_expression id written rfl rfl

end Builtin

/-! ### Blocks -/

/-- The type of a block has this shape. -/
def Catalogue.HasShape (c : Catalogue) (b : Block) (shape : Shape) : Prop :=
  ∃ listing, c.get? b.kind = some listing ∧ listing.blockType.shape = shape

theorem Catalogue.hasShape_iff {c : Catalogue} {b : Block} {listing : Listing} {shape : Shape}
    (listed : c.get? b.kind = some listing) :
    c.HasShape b shape ↔ listing.blockType.shape = shape := by
  constructor
  · rintro ⟨other, there, same⟩
    exact Option.some.inj (there.symm.trans listed) ▸ same
  · exact fun same => ⟨listing, listed, same⟩

/-- The block is generated without code: its type is a built-in that writes nothing of its own,
and if it holds the code of others, these are silent as well. -/
inductive Catalogue.Silent (c : Catalogue) : Block → Prop where
  | of {b : Block} {k : Builtin} (listed : c.get? b.kind = some ⟨k.blockType, .builtin k⟩)
      (bare : k.Bare b)
      (inside : k = .onStart → ∀ child ∈ b.sequenceIn "NAME", Silent c child) : Silent c b

theorem Catalogue.Silent.of_listed {c : Catalogue} {b : Block} {listing : Listing}
    (silent : c.Silent b) (listed : c.get? b.kind = some listing) :
    ∃ k, listing.generator = .builtin k ∧ k.Bare b ∧
      (k = .onStart → ∀ child ∈ b.sequenceIn "NAME", c.Silent child) := by
  cases silent with
  | of there bare inside =>
    obtain rfl := Option.some.inj (there.symm.trans listed)
    exact ⟨_, rfl, bare, inside⟩

namespace Compiler

variable {c : Compiler} {b : Block} {s : Snippet}

/-- **Generated expressions.** In strict mode a block that is generated generates an expression
exactly when it has the shape of values. -/
theorem isExpression_iff (loaded : c.catalogue.Loaded) (strict : c.strict = true)
    (made : (c.compile b).outcome = .ok s) :
    s.order.isSome ↔ c.catalogue.HasShape b .value := by
  obtain ⟨listing, listed⟩ := listed_of_generated strict made
  obtain ⟨own, after, answered, rfl⟩ := (outcome_of_listed listed).mp made
  show own.order.isSome ↔ _
  have steady := c.steady_holder b
  rw [Catalogue.hasShape_iff listed, loaded.blockType_eq listed]
  cases generator : listing.generator with
  | builtin k =>
    rw [generator] at answered
    exact (Builtin.looks_of_answers steady answered).order
  | call item =>
    rw [generator] at answered
    obtain ⟨arguments, -, rfl⟩ := (item.snippet_answers steady).mp answered
    exact iff_of_false nofun nofun
  | literal item =>
    rw [generator] at answered
    obtain ⟨arguments, -, rfl⟩ := (item.snippet_answers steady).mp answered
    exact iff_of_true rfl rfl
  | recipe recipe => exact absurd generator (loaded.not_recipe listed recipe)

/-- The code of a sequence is empty when that of each of its blocks is. -/
theorem join_eq_empty_iff {bs : List Block} {all : List Snippet}
    (made : c.snippets bs = .ok all) :
    String.join (all.map (·.code)) = "" ↔
      ∀ child ∈ bs, ∀ s, (c.compile child).outcome = .ok s → s.code = "" := by
  induction bs generalizing all with
  | nil =>
    cases made
    exact iff_of_true rfl fun _ mem => absurd mem List.not_mem_nil
  | cons first rest ih =>
    obtain ⟨s, others, generated, done, rfl⟩ := snippets_cons.mp made
    rw [List.map_cons, String.join_cons, String.append_eq_empty_iff, ih done,
      List.forall_mem_cons]
    refine and_congr_left' ⟨fun empty t again => ?_, fun empty => empty s generated⟩
    rw [generated] at again
    exact Except.ok.inj again ▸ empty

/-- **Generated blocks without code.** In strict mode a block that is generated has no code exactly
when it is silent. -/
theorem code_eq_empty_iff (loaded : c.catalogue.Loaded) (strict : c.strict = true) (b : Block) :
    ∀ s, (c.compile b).outcome = .ok s → (s.code = "" ↔ c.catalogue.Silent b) := by
  induction b using Block.induction with
  | step b values statements =>
    intro s made
    obtain ⟨listing, listed⟩ := listed_of_generated strict made
    obtain ⟨own, after, answered, rfl⟩ := (outcome_of_listed listed).mp made
    have steady := c.steady_holder b
    have inOrder := loaded.blockType_eq listed
    obtain ⟨blockType, generator⟩ := listing
    have foreign : (∀ k, generator ≠ .builtin k) → ¬ c.catalogue.Silent b := by
      intro other silent
      obtain ⟨k, same, -⟩ := silent.of_listed listed
      exact other k same
    cases generator with
    | builtin k =>
      obtain rfl : blockType = k.blockType := inOrder
      by_cases start : k = .onStart
      · obtain rfl := start
        obtain ⟨code, told, rfl⟩ := (Builtin.onStart_answers steady).mp answered
        obtain ⟨all, done, rfl, -⟩ := sequenceCode_answers.mp told
        refine (join_eq_empty_iff done).trans ⟨fun empty => ?_, fun silent child mem t gave => ?_⟩
        · refine .of listed trivial fun _ child mem => ?_
          obtain ⟨t, -, gave⟩ := snippet_of_mem done mem
          exact (statements "NAME" child mem t gave).mp (empty child mem t gave)
        · obtain ⟨k, same, -, inside⟩ := silent.of_listed listed
          obtain rfl := Generator.builtin.inj same
          exact (statements "NAME" child mem t gave).mpr (inside rfl child mem)
      · refine ((Builtin.looks_of_answers steady answered).code start).trans
          ⟨fun bare => .of listed bare fun same => absurd same start, fun silent => ?_⟩
        obtain ⟨k', same, bare, -⟩ := silent.of_listed listed
        obtain rfl := Generator.builtin.inj same
        exact bare
    | call item =>
      obtain ⟨arguments, -, rfl⟩ := (item.snippet_answers steady).mp answered
      exact iff_of_false (item.code_ne_empty arguments) (foreign nofun)
    | literal item =>
      obtain ⟨arguments, -, rfl⟩ := (item.snippet_answers steady).mp answered
      exact iff_of_false (item.code_ne_empty _ arguments) (foreign nofun)
    | recipe r => exact absurd rfl (loaded.not_recipe listed r)

end Compiler

end Blockwork
