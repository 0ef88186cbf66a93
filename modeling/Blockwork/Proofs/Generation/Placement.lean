import Mathlib.Control.Monad.Basic
import Blockwork.Proofs.Generation.Forms
import Blockwork.Proofs.Generation.Success

/-!
# Blocks in the wrong place

The shape of a block type says where its blocks belong: values into value slots, statements into
statement inputs. Generators never read it, but it shows in what they generate: values, and no other
blocks, generate expressions (`Compiler.isExpression_iff`).

* **value slots** — a slot refuses what has code and is no expression, so that everything in the
  slots of a generated tree is a value or silent (`Compiler.mayFill_of_generated`);
* **statement inputs** — they miss such a check: a block with statement inputs is generated as soon
  as the blocks in them are, whatever they are (`Compiler.generated_iff_of_takesStatements`), and
  the code of a value there runs into what stands behind it.

So some misplaced blocks go unreported (`Compiler.misplaced_not_reported`).
-/

namespace Blockwork

namespace Builtin

variable {h : Holder} {k : Builtin} {name input : String} {failure : Failure}

/-- A built-in with a statement input has no slot. -/
theorem hasValue_of_hasStatement (statement : k.blockType.hasStatement input = true) :
    k.blockType.hasValue name = false := by
  cases value : k.blockType.hasValue name with
  | false => rfl
  | true =>
    rcases hasValue_iff.mp value with ⟨rfl, -⟩ | ⟨rfl, -⟩
    · simp [blockType, BlockType.hasStatement, Input.value] at statement
    · simp [blockType, BlockType.hasStatement, Input.value, Input.field] at statement

/-- With its own block, a built-in with a statement input finds no fault but for the port of a
server and the method of a route. -/
theorem complaint_of_hasStatement (statement : k.blockType.hasStatement input = true)
    (complaint : k.Complaint h failure) :
    (k = server ∧ portOf h.block = .error failure) ∨
      (k = route ∧ methodOf h.block = .error failure) := by
  cases complaint with
  | port refused => exact .inl ⟨rfl, refused⟩
  | method refused => exact .inr ⟨rfl, refused⟩
  | number _ => simp [blockType, BlockType.hasStatement, Input.field] at statement
  | infinite _ _ => simp [blockType, BlockType.hasStatement, Input.field] at statement
  | literal _ _ _ => simp [blockType, BlockType.hasStatement, Input.value] at statement

end Builtin

theorem CallItem.hasStatement_eq_false (item : CallItem) (input : String) :
    item.blockType.hasStatement input = false := by
  simp [blockType, BlockType.hasStatement, PackageItem.slots, Input.value]

theorem LiteralItem.hasStatement_eq_false (item : LiteralItem) (input : String) :
    item.blockType.hasStatement input = false := by
  simp [blockType, BlockType.hasStatement, PackageItem.slots, Input.value, Input.field]

namespace Catalogue

/-- The type of a block declares a statement input. -/
def TakesStatements (c : Catalogue) (b : Block) : Prop :=
  ∃ listing input, c.get? b.kind = some listing ∧ listing.blockType.hasStatement input = true

/-- A block stands in a statement input that the type of another block declares. -/
def StandsIn (c : Catalogue) (b : Block) (input : String) (child : Block) : Prop :=
  ∃ listing, c.get? b.kind = some listing ∧ listing.blockType.hasStatement input = true ∧
    child ∈ b.sequenceIn input

/-- What a slot takes: a value, or a block that generates no code. -/
def MayFill (c : Catalogue) (child : Block) : Prop :=
  c.HasShape child .value ∨ c.Silent child

/-- Only built-ins have statement inputs. -/
theorem Loaded.builtin_of_takesStatements {c : Catalogue} {b : Block} (loaded : c.Loaded)
    (takes : c.TakesStatements b) :
    ∃ (k : Builtin) (input : String), c.get? b.kind = some ⟨k.blockType, .builtin k⟩ ∧
      k.blockType.hasStatement input = true := by
  obtain ⟨listing, input, listed, declared⟩ := takes
  have inOrder := loaded.blockType_eq listed
  obtain ⟨blockType, generator⟩ := listing
  obtain rfl : blockType = generator.blockType := inOrder
  cases generator with
  | builtin k => exact ⟨k, input, listed, declared⟩
  | call item => exact nomatch (item.hasStatement_eq_false input).symm.trans declared
  | literal item => exact nomatch (item.hasStatement_eq_false input).symm.trans declared
  | recipe r => exact absurd rfl (loaded.not_recipe listed r)

end Catalogue

namespace Compiler

variable {c : Compiler} {b r child : Block} {s t : Snippet} {input : String}

/-! ### Value slots -/

theorem fitsSlot_iff (loaded : c.catalogue.Loaded) (strict : c.strict = true)
    (made : (c.compile child).outcome = .ok s) : s.FitsSlot ↔ c.catalogue.MayFill child :=
  or_comm.trans
    (or_congr (isExpression_iff loaded strict made) (code_eq_empty_iff loaded strict child s made))

/-- Whatever stands in a slot of a generated tree may fill it. -/
theorem mayFill_of_generated (loaded : c.catalogue.Loaded) (strict : c.strict = true)
    (made : (c.compile b).outcome = .ok s) (reaches : c.catalogue.Reaches b r)
    (fills : c.catalogue.FillsSlot r input child) : c.catalogue.MayFill child := by
  obtain ⟨t, generated, -⟩ := generated_of_reaches loaded reaches made
  obtain ⟨u, done, fits⟩ := makesValue_of_fills loaded generated fills
  exact (fitsSlot_iff loaded strict done).mp fits

/-- An entry of a map is generated with a block that may fill its slot. -/
theorem mapField_of_mayFill (loaded : c.catalogue.Loaded) (strict : c.strict = true)
    (kind : b.kind = "field") (slot : b.plugged? "NAME" = some child)
    (made : (c.compile child).outcome = .ok t)
    (placed : c.catalogue.MayFill child) :
    ∃ s, (c.compile b).outcome = .ok s := by
  have listed : c.catalogue.get? b.kind = some ⟨Builtin.mapField.blockType, .builtin .mapField⟩ :=
    kind ▸ loaded.get?_builtin .mapField (by decide)
  have fits : (t.inSlot? .loosest).isSome :=
    Snippet.isSome_inSlot?.mpr ((fitsSlot_iff loaded strict made).mpr placed)
  obtain ⟨code, stands⟩ := Option.isSome_iff_exists.mp fits
  have told : ((c.holder b).valueCode "NAME" .loosest).Answers {} code ({} ++ t.usage) :=
    valueCode_answers.mpr (.inr ⟨child, t, slot, made, stands, rfl⟩)
  have answered := (Builtin.mapField_answers (c.steady_holder b)).mpr ⟨code, told, rfl⟩
  exact ⟨_, (outcome_of_listed listed).mpr ⟨_, _, answered, rfl⟩⟩

/-- Any other block in its slot is reported, with its name and its place. -/
theorem mapField_of_misplaced (loaded : c.catalogue.Loaded) (strict : c.strict = true)
    (kind : b.kind = "field") (slot : b.plugged? "NAME" = some child)
    (made : (c.compile child).outcome = .ok t)
    (misplaced : ¬ c.catalogue.MayFill child) :
    (c.compile b).outcome = .error (.notValue child.id child.kind "NAME" b.id) := by
  have listed : c.catalogue.get? b.kind = some ⟨Builtin.mapField.blockType, .builtin .mapField⟩ :=
    kind ▸ loaded.get?_builtin .mapField (by decide)
  cases outcome : (c.compile b).outcome with
  | ok s =>
    have fills : c.catalogue.FillsSlot b "NAME" child := ⟨_, listed, by decide, slot⟩
    exact absurd (mayFill_of_generated loaded strict outcome (.self b) fills) misplaced
  | error failure =>
    refine congrArg Except.error ?_
    refine blame_of_listed (P := (· = .notValue child.id child.kind "NAME" b.id)) listed ?_ outcome
    have value : ((c.holder b).valueCode "NAME" .loosest).FailsBy
        (· = .notValue child.id child.kind "NAME" b.id) := by
      refine failsBy_valueCode (fun other there failure failed => ?_)
        (fun other s there _ _ => ?_) _
      · obtain rfl := Option.some.inj (there.symm.trans slot)
        exact nomatch failed.symm.trans made
      · obtain rfl := Option.some.inj (there.symm.trans slot)
        rfl
    exact value.bind fun _ _ => .pure _

/-! ### Statement inputs -/

/-- A block with statement inputs is generated as soon as its port or method is in order and the
blocks in these inputs are generated, whatever their shapes. -/
theorem generated_iff_of_takesStatements (loaded : c.catalogue.Loaded)
    (takes : c.catalogue.TakesStatements b) :
    (∃ s, (c.compile b).outcome = .ok s) ↔
      (b.kind = "server" → b.HasPort) ∧ (b.kind = "route" → b.HasMethod) ∧
        ∀ input child, c.catalogue.StandsIn b input child →
          ∃ t, (c.compile child).outcome = .ok t := by
  obtain ⟨k, input, listed, statement⟩ := loaded.builtin_of_takesStatements takes
  have kind : b.kind = k.blockType.id := loaded.id_of_builtin listed rfl
  constructor
  · rintro ⟨s, made⟩
    refine ⟨fun server => ?_, fun route => ?_, ?_⟩
    · obtain ⟨own, after, answered⟩ :=
        answers_of_kept .server (loaded.get?_builtin .server (by decide)) server made
      obtain ⟨port, body, inner, accepted, -⟩ :=
        (Builtin.server_answers (c.steady_holder b)).mp answered
      exact Builtin.hasPort_iff.mpr ⟨port, accepted⟩
    · obtain ⟨own, after, answered⟩ :=
        answers_of_kept .route (loaded.get?_builtin .route (by decide)) route made
      obtain ⟨method, inner, mid, accepted, -⟩ :=
        (Builtin.route_answers (c.steady_holder b)).mp answered
      exact Builtin.hasMethod_iff.mpr ⟨method, accepted⟩
    · rintro input child ⟨listing, there, declared, mem⟩
      obtain ⟨t, generated, -⟩ :=
        generated_of_reaches loaded (.statement there declared mem (.self child)) made
      exact ⟨t, generated⟩
  · rintro ⟨port, method, inside⟩
    cases outcome : (c.compile b).outcome with
    | ok s => exact ⟨s, rfl⟩
    | error failure =>
      refine (blame_of_listed (P := fun _ => False) listed ?_ outcome).elim
      refine k.failsBy_snippet ⟨fun name declared => ?_, fun name declared => ?_⟩ ?_
      · rw [Builtin.hasValue_of_hasStatement statement] at declared
        exact nomatch declared
      · refine failsBy_sequenceCode fun child mem other failed => ?_
        obtain ⟨t, generated⟩ := inside name child ⟨_, listed, declared, mem⟩
        exact nomatch failed.symm.trans generated
      · intro other complaint
        rcases Builtin.complaint_of_hasStatement statement complaint with
          ⟨rfl, refused⟩ | ⟨rfl, refused⟩
        · obtain ⟨n, accepted⟩ := Builtin.hasPort_iff.mp (port kind)
          exact nomatch refused.symm.trans accepted
        · obtain ⟨verb, accepted⟩ := Builtin.hasMethod_iff.mp (method kind)
          exact nomatch refused.symm.trans accepted

/-- **Misplaced blocks.** In strict mode, with packages taken in:

* in a tree that is generated, on any stack, everything that stands in the slots of the blocks
  reached from its root is a value or generates no code;
* anything else in the slot of a map entry is reported with its name and its place, while the entry
  is generated with what may fill the slot;
* in statement inputs nothing is reported: whether a block with such inputs is generated does not
  depend on the shapes of the blocks in them. -/
theorem misplaced_in_slots (loaded : c.catalogue.Loaded) (strict : c.strict = true) :
    (∀ b frames s, ((c.compile b).run frames).1 = .ok s →
      ∀ r input child, c.catalogue.Reaches b r → c.catalogue.FillsSlot r input child →
        c.catalogue.MayFill child) ∧
    (∀ b child t, b.kind = "field" → b.plugged? "NAME" = some child →
      (c.compile child).outcome = .ok t →
        (c.catalogue.MayFill child → ∃ s, (c.compile b).outcome = .ok s) ∧
        (¬ c.catalogue.MayFill child →
          (c.compile b).outcome = .error (.notValue child.id child.kind "NAME" b.id))) ∧
    ∀ b, c.catalogue.TakesStatements b →
      ((∃ s, (c.compile b).outcome = .ok s) ↔
        (b.kind = "server" → b.HasPort) ∧ (b.kind = "route" → b.HasMethod) ∧
          ∀ input child, c.catalogue.StandsIn b input child →
            ∃ t, (c.compile child).outcome = .ok t) := by
  refine ⟨?_, ?_, fun b takes => generated_iff_of_takesStatements loaded takes⟩
  · intro b frames s made r input child reaches fills
    exact mayFill_of_generated loaded strict (outcome_of_run made) reaches fills
  · intro b child t kind slot made
    exact ⟨mapField_of_mayFill loaded strict kind slot made,
      mapField_of_misplaced loaded strict kind slot made⟩

/-- A line of code is reported in the slot of a map entry, but a text is not in a main function. -/
theorem misplaced_in_slots_of_line :
    let c : Compiler := { catalogue := .ofBuiltins }
    let line : Block := { id := "g", kind := "go", fields := [("line", .text "stop()")] }
    let text : Block := { id := "t", kind := "text" }
    (c.compile { id := "f", kind := "field", values := [("NAME", line)] }).outcome =
        .error (.notValue "g" "go" "NAME" "f") ∧
      ∃ s, (c.compile
        { id := "m", kind := "main", statements := [("children", [text])] }).outcome = .ok s := by
  intro c line text
  obtain ⟨-, slots, statements⟩ := misplaced_in_slots (c := c) .builtins rfl
  constructor
  · have made : (c.compile line).outcome = .ok (.inLines "stop()\n") := by decide +kernel
    refine (slots _ line _ rfl rfl made).2 fun fills => ?_
    rcases (fitsSlot_iff .builtins rfl made).mpr fills with empty | value
    · exact nomatch empty
    · exact nomatch value
  · have listed := Catalogue.get?_ofBuiltins_id .main
    refine (statements _ ⟨_, "children", listed, rfl⟩).mpr
      ⟨fun server => absurd server (by decide), fun route => absurd route (by decide), ?_⟩
    rintro input child ⟨-, -, -, mem⟩
    obtain ⟨entry, standing, inside⟩ := Block.exists_mem_of_mem_sequenceIn mem
    obtain rfl := List.mem_singleton.mp standing
    obtain rfl := List.mem_singleton.mp inside
    exact ⟨.expression "\"\"" .atomic, by decide +kernel⟩

/-- A value in a statement input and a blank line in a slot are both misplaced, and neither is
reported. -/
theorem misplaced_not_reported :
    let c : Compiler := { catalogue := .ofBuiltins }
    let text : Block := { id := "t", kind := "text" }
    let blank : Block := { id := "g", kind := "go" }
    let m : Block := { id := "m", kind := "main", statements := [("children", [text])] }
    let f : Block := { id := "f", kind := "field", values := [("NAME", blank)] }
    ((∃ s, (c.compile m).outcome = .ok s) ∧ c.catalogue.StandsIn m "children" text ∧
      c.catalogue.HasShape text .value) ∧
    ((∃ s, (c.compile f).outcome = .ok s) ∧ c.catalogue.FillsSlot f "NAME" blank ∧
      c.catalogue.HasShape blank .statement) := by
  intro c text blank m f
  have value : (c.compile m).outcome = .ok (.inLines "func main() \x7b\n\t\"\"\x7d\n") := by
    decide +kernel
  have silent : (c.compile f).outcome = .ok (.inLines "\"key_name\": nil,\n") := by
    decide +kernel
  refine ⟨⟨⟨_, value⟩, ?_, ?_⟩, ⟨_, silent⟩, ?_, ?_⟩
  · exact ⟨_, Catalogue.get?_ofBuiltins_id .main, rfl, List.mem_singleton.mpr rfl⟩
  · exact ⟨_, Catalogue.get?_ofBuiltins_id .text, rfl⟩
  · exact ⟨_, Catalogue.get?_ofBuiltins_id .mapField, rfl, rfl⟩
  · exact ⟨_, Catalogue.get?_ofBuiltins_id .line, rfl⟩

end Compiler

end Blockwork
