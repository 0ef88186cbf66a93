import Mathlib.Control.Monad.Basic
import Blockwork.Proofs.Generation.Failing
import Blockwork.Proofs.Generation.Gathering

/-!
# When blocks are generated

Strict compilation answers exactly when every block that it reaches is sound, and if it fails,
then at one of these blocks and because of what is not sound about it:

* **fields** — `Block.NumberIn`, `Block.HasPort`, `Block.HasFinite` and `Block.HasMethod` say what
  the built-ins ask of their fields;
* **blocks** — `Compiler.Sound` is what a block must satisfy, `Compiler.Fault` the failures of
  those that do not;
* **one step** — `Compiler.sound_of_generated` for a block that is generated, and
  `Compiler.blames_of_error` for one that fails;
* **trees** — `Compiler.generated_iff_sound`.
-/

namespace Blockwork

/-! ### Fields -/

namespace Block

/-- A field is absent, or holds a number with a property, perhaps as a text with blanks around
it. -/
def NumberIn (b : Block) (name : String) (P : Binary64 → Prop) : Prop :=
  match b.scalar? name with
  | none => True
  | some (.number x) => P x
  | some (.text s) => ∃ x, Binary64.ofText? (Text.trim s) = some x ∧ P x
  | some (.flag _) => False

/-- The port of a server, if it names one, is a whole number of sixteen bits. -/
def HasPort (b : Block) : Prop :=
  b.NumberIn "port" fun x => ∃ n, x.toInt? = some n ∧ 0 ≤ n ∧ n ≤ 65535

/-- The number of a number block, if it has one, is finite. -/
def HasFinite (b : Block) : Prop :=
  b.NumberIn "NUM" fun x => x.isFinite = true

/-- The method of a route, in capital letters and without blanks around it, is one of those that
routes serve, or the singular of OPTIONS. -/
def HasMethod (b : Block) : Prop :=
  let method := String.ofList ((Text.trim (b.textD "method" "GET")).toList.map Char.toUpper)
  method = "OPTION" ∨ method ∈ requestMethods

variable {b : Block} {name : String} {P : Binary64 → Prop} {default : Binary64}

theorem numberIn_iff (holds : P default) :
    b.NumberIn name P ↔ ∃ x, b.numberD name default = .ok x ∧ P x := by
  unfold NumberIn numberD
  cases b.scalar? name with
  | none => exact iff_of_true trivial ⟨default, rfl, holds⟩
  | some value =>
    cases value with
    | number x =>
      constructor
      · exact fun property => ⟨x, rfl, property⟩
      · rintro ⟨_, ⟨⟩, property⟩
        exact property
    | text s =>
      cases spelt : Binary64.ofText? (Text.trim s) with
      | none => simp [spelt]
      | some x => simp [spelt]
    | flag value => simp

theorem hasFinite_iff :
    b.HasFinite ↔ ∃ x, b.numberD "NUM" .zero = .ok x ∧ x.isFinite = true := by
  have zero : Binary64.zero.isFinite = true := rfl
  exact numberIn_iff zero

theorem exists_fault_of_numberD {failure : Failure}
    (unread : b.numberD name default = .error failure) :
    ∃ fault, failure = .badField b.id name fault := by
  unfold numberD at unread
  split at unread
  · exact nomatch unread
  · exact nomatch unread
  · split at unread
    · exact nomatch unread
    · exact ⟨_, (Except.error.inj unread).symm⟩
  · exact ⟨_, (Except.error.inj unread).symm⟩

end Block

namespace Builtin

variable {b : Block} {failure : Failure}

theorem portOf_eq_ok_iff {n : Int} :
    portOf b = .ok n ↔ ∃ x, b.numberD "port" defaultPort = .ok x ∧
      x.toInt? = some n ∧ 0 ≤ n ∧ n ≤ 65535 := by
  unfold portOf
  cases b.numberD "port" defaultPort with
  | error failure => simp [bind, Except.bind]
  | ok x =>
    simp only [bind, Except.bind, Except.ok.injEq, exists_eq_left']
    cases x.toInt? with
    | none => simp
    | some m =>
      simp only [Option.some.injEq]
      split
      · rename_i range
        rw [Except.ok.injEq]
        constructor
        · rintro rfl
          exact ⟨rfl, range⟩
        · exact fun ⟨same, _⟩ => same
      · rename_i outside
        refine iff_of_false nofun ?_
        rintro ⟨rfl, range⟩
        exact outside range

theorem hasPort_iff : b.HasPort ↔ ∃ n, portOf b = .ok n := by
  have default : ∃ n, defaultPort.toInt? = some n ∧ 0 ≤ n ∧ n ≤ 65535 := ⟨8080, by decide⟩
  unfold Block.HasPort
  rw [Block.numberIn_iff default]
  constructor
  · rintro ⟨x, read, n, whole⟩
    exact ⟨n, portOf_eq_ok_iff.mpr ⟨x, read, whole⟩⟩
  · rintro ⟨n, accepted⟩
    obtain ⟨x, read, whole⟩ := portOf_eq_ok_iff.mp accepted
    exact ⟨x, read, n, whole⟩

theorem exists_fault_of_portOf (refused : portOf b = .error failure) :
    ∃ fault, failure = .badField b.id "port" fault := by
  unfold portOf at refused
  cases read : b.numberD "port" defaultPort with
  | error other =>
    rw [read] at refused
    obtain rfl := Except.error.inj refused
    exact Block.exists_fault_of_numberD read
  | ok x =>
    simp only [read, bind, Except.bind] at refused
    split at refused
    · split at refused
      · exact nomatch refused
      · exact ⟨_, (Except.error.inj refused).symm⟩
    · exact ⟨_, (Except.error.inj refused).symm⟩

theorem hasMethod_iff : b.HasMethod ↔ ∃ method, methodOf b = .ok method := by
  unfold Block.HasMethod methodOf
  simp only
  split
  · rename_i singular
    exact iff_of_true (.inl singular) ⟨_, rfl⟩
  · rename_i plural
    split
    · rename_i served
      exact iff_of_true (.inr served) ⟨_, rfl⟩
    · rename_i unserved
      refine iff_of_false ?_ nofun
      rintro (singular | served)
      · exact plural singular
      · exact unserved served

theorem exists_fault_of_methodOf (refused : methodOf b = .error failure) :
    ∃ fault, failure = .badField b.id "method" fault := by
  unfold methodOf at refused
  simp only at refused
  split at refused
  · exact nomatch refused
  · split at refused
    · exact nomatch refused
    · exact ⟨_, (Except.error.inj refused).symm⟩

/-- Two built-ins have a value slot. -/
theorem hasValue_iff {k : Builtin} {name : String} :
    k.blockType.hasValue name = true ↔
      (k = require ∧ name = "VALUE") ∨ (k = mapField ∧ name = "NAME") := by
  cases k <;> simp [blockType, BlockType.hasValue, Input.value, Input.statement, Input.field,
    eq_comm]

end Builtin

/-! ### Slots -/

/-- A block stands in a slot that the type of another block declares. -/
def Catalogue.FillsSlot (c : Catalogue) (b : Block) (input : String) (child : Block) : Prop :=
  ∃ listing, c.get? b.kind = some listing ∧ listing.blockType.hasValue input = true ∧
    b.plugged? input = some child

section Slots

variable {h : Holder} {env : Surroundings} {own : Snippet} {top after : Usage} {name : String}

/-- Somebody asked for the code of a slot and got it. -/
def Holder.Asked (h : Holder) (name : String) : Prop :=
  ∃ outer top value after, (h.valueCode name outer).Answers top value after

theorem Holder.asked_of_arguments (steady : h.Steady) {parameters : List Parameter}
    {arguments : List (Parameter × String)}
    (answered : (h.arguments parameters).Answers top arguments after) :
    ∀ p ∈ parameters, h.Asked p.name := by
  induction parameters generalizing top arguments with
  | nil => exact nofun
  | cons first rest ih =>
    obtain ⟨value, mid, others, told, later, -⟩ := (arguments_cons_answers steady).mp answered
    intro p mem
    rcases List.mem_cons.mp mem with rfl | further
    · exact ⟨_, top, value, mid, told⟩
    · exact ih later p further

/-- A generator that answers has asked for the code of every slot that its type declares. -/
theorem Generator.asked_of_answers (steady : h.Steady) (g : Generator)
    (package : ∀ r, g ≠ .recipe r) (declared : g.blockType.hasValue name = true)
    (answered : (g.snippet env h).Answers top own after) : h.Asked name := by
  cases g with
  | builtin k =>
    rcases Builtin.hasValue_iff.mp declared with ⟨rfl, rfl⟩ | ⟨rfl, rfl⟩
    · obtain ⟨value, told, -⟩ := (Builtin.require_answers steady).mp answered
      exact ⟨_, top, value, after, told⟩
    · obtain ⟨value, told, -⟩ := (Builtin.mapField_answers steady).mp answered
      exact ⟨_, top, value, after, told⟩
  | call item =>
    obtain ⟨p, mem, rfl⟩ := CallItem.hasValue_iff.mp declared
    obtain ⟨arguments, told, -⟩ := (item.snippet_answers steady).mp answered
    exact Holder.asked_of_arguments steady told p mem
  | literal item =>
    obtain ⟨p, mem, rfl⟩ := LiteralItem.hasValue_iff.mp declared
    obtain ⟨arguments, told, -⟩ := (item.snippet_answers steady).mp answered
    exact Holder.asked_of_arguments steady told p mem
  | recipe r => exact absurd rfl (package r)

end Slots

namespace Compiler

variable {c : Compiler} {b child : Block} {s : Snippet} {failure : Failure}

/-! ### Sound blocks -/

/-- The block generates an expression, or no code at all. -/
def MakesValue (c : Compiler) (child : Block) : Prop :=
  ∃ s, (c.compile child).outcome = .ok s ∧ s.FitsSlot

/-- What the value of a require block generates, if anything, reads as a literal. -/
def NamesPath (c : Compiler) (b : Block) : Prop :=
  ∀ child s code, b.plugged? "VALUE" = some child → (c.compile child).outcome = .ok s →
    s.inSlot? .atomic = some code → code = "" ∨ (Source.literalText? code).isSome

/-- What a block must satisfy to be generated, once the blocks in its inputs are. -/
structure Sound (c : Compiler) (b : Block) : Prop where
  listed : ∃ listing, c.catalogue.get? b.kind = some listing
  port : b.kind = "server" → b.HasPort
  number : b.kind = "math_number" → b.HasFinite
  method : b.kind = "route" → b.HasMethod
  path : b.kind = "require" → c.NamesPath b
  slots : ∀ input child, c.catalogue.FillsSlot b input child → c.MakesValue child

/-- The failures of blocks that are not sound. -/
inductive Fault (c : Compiler) (b : Block) : Failure → Prop where
  | unlisted (unlisted : c.catalogue.get? b.kind = none) : Fault c b (.unlisted b.kind)
  | port {fault : FieldFault} (kind : b.kind = "server") (refused : ¬ b.HasPort) :
      Fault c b (.badField b.id "port" fault)
  | number {fault : FieldFault} (kind : b.kind = "math_number") (refused : ¬ b.HasFinite) :
      Fault c b (.badField b.id "NUM" fault)
  | method {fault : FieldFault} (kind : b.kind = "route") (refused : ¬ b.HasMethod) :
      Fault c b (.badField b.id "method" fault)
  | path {fault : FieldFault} (kind : b.kind = "require") (refused : ¬ c.NamesPath b) :
      Fault c b (.badField b.id "VALUE" fault)
  | notValue {input : String} {child : Block} (fills : c.catalogue.FillsSlot b input child)
      (refused : ¬ c.MakesValue child) : Fault c b (.notValue child.id child.kind input b.id)

theorem Fault.not_sound (fault : c.Fault b failure) : ¬ c.Sound b := by
  intro sound
  cases fault with
  | unlisted unlisted =>
    obtain ⟨listing, listed⟩ := sound.listed
    rw [unlisted] at listed
    exact nomatch listed
  | port kind refused => exact refused (sound.port kind)
  | number kind refused => exact refused (sound.number kind)
  | method kind refused => exact refused (sound.method kind)
  | path kind refused => exact refused (sound.path kind)
  | notValue fills refused => exact refused (sound.slots _ _ fills)

/-! ### Blocks that are generated -/

/-- A built-in in its own place has answered when its block is generated. -/
theorem answers_of_kept (k : Builtin)
    (kept : c.catalogue.get? k.blockType.id = some ⟨k.blockType, .builtin k⟩)
    (kind : b.kind = k.blockType.id) (made : (c.compile b).outcome = .ok s) :
    ∃ own after, (k.snippet c.surroundings (c.holder b)).Answers {} own after := by
  obtain ⟨own, after, answered, -⟩ := (outcome_of_listed (kind ▸ kept)).mp made
  exact ⟨own, after, answered⟩

theorem makesValue_of_asked {input : String} (asked : (c.holder b).Asked input)
    (found : b.plugged? input = some child) : c.MakesValue child := by
  obtain ⟨outer, top, value, after, told⟩ := asked
  rcases valueCode_answers.mp told with ⟨empty, -⟩ | ⟨other, s, there, made, stands, -⟩
  · rw [found] at empty
    exact nomatch empty
  · rw [found] at there
    obtain rfl := Option.some.inj there
    exact ⟨s, made, Snippet.isSome_inSlot?.mp (Option.isSome_iff_exists.mpr ⟨value, stands⟩)⟩

/-- Whatever stands in a slot of a generated block makes a value. -/
theorem makesValue_of_fills {input : String} (loaded : c.catalogue.Loaded)
    (made : (c.compile b).outcome = .ok s) (fills : c.catalogue.FillsSlot b input child) :
    c.MakesValue child := by
  obtain ⟨listing, listed, declared, found⟩ := fills
  obtain ⟨own, after, answered, -⟩ := (outcome_of_listed listed).mp made
  rw [loaded.blockType_eq listed] at declared
  refine makesValue_of_asked ?_ found
  exact listing.generator.asked_of_answers (c.steady_holder b) (loaded.not_recipe listed)
    declared answered

theorem namesPath_of_generated
    (kept : c.catalogue.get? "require" = some ⟨Builtin.require.blockType, .builtin .require⟩)
    (kind : b.kind = "require") (made : (c.compile b).outcome = .ok s) : c.NamesPath b := by
  intro child t code found generated stands
  obtain ⟨own, after, answered⟩ := answers_of_kept .require kept kind made
  obtain ⟨value, told, read⟩ := (Builtin.require_answers (c.steady_holder b)).mp answered
  rcases valueCode_answers.mp told with ⟨empty, -⟩ | ⟨other, u, there, done, here, -⟩
  · rw [found] at empty
    exact nomatch empty
  · rw [found] at there
    obtain rfl := Option.some.inj there
    rw [generated] at done
    obtain rfl := Except.ok.inj done
    rw [stands] at here
    obtain rfl := Option.some.inj here
    rcases read with ⟨empty, -⟩ | ⟨path, -, literal, -⟩
    · exact .inl empty
    · exact .inr (Option.isSome_iff_exists.mpr ⟨path, literal⟩)

/-- In strict mode, with the built-ins in their places, a block that is generated is sound. -/
theorem sound_of_generated (loaded : c.catalogue.Loaded)
    (kept : ∀ k : Builtin, c.catalogue.get? k.blockType.id = some ⟨k.blockType, .builtin k⟩)
    (strict : c.strict = true) (made : (c.compile b).outcome = .ok s) : c.Sound b where
  listed := listed_of_generated strict made
  port kind := by
    obtain ⟨own, after, answered⟩ := answers_of_kept .server (kept _) kind made
    obtain ⟨port, body, inner, accepted, -⟩ :=
      (Builtin.server_answers (c.steady_holder b)).mp answered
    exact Builtin.hasPort_iff.mpr ⟨port, accepted⟩
  number kind := by
    obtain ⟨own, after, answered⟩ := answers_of_kept .number (kept _) kind made
    obtain ⟨x, read, finite, -⟩ := Builtin.number_answers.mp answered
    exact Block.hasFinite_iff.mpr ⟨x, read, finite⟩
  method kind := by
    obtain ⟨own, after, answered⟩ := answers_of_kept .route (kept _) kind made
    obtain ⟨method, inner, mid, accepted, -⟩ :=
      (Builtin.route_answers (c.steady_holder b)).mp answered
    exact Builtin.hasMethod_iff.mpr ⟨method, accepted⟩
  path kind := namesPath_of_generated (kept .require) kind made
  slots _ _ := makesValue_of_fills loaded made

/-! ### Blocks that fail -/

theorem Fault.of_complaint {k : Builtin} (kind : b.kind = k.blockType.id)
    (complaint : k.Complaint (c.holder b) failure) : c.Fault b failure := by
  cases complaint with
  | port refused =>
    obtain ⟨fault, rfl⟩ := Builtin.exists_fault_of_portOf refused
    refine .port kind fun accepted => ?_
    obtain ⟨port, read⟩ := Builtin.hasPort_iff.mp accepted
    exact nomatch refused.symm.trans read
  | method refused =>
    obtain ⟨fault, rfl⟩ := Builtin.exists_fault_of_methodOf refused
    refine .method kind fun accepted => ?_
    obtain ⟨method, read⟩ := Builtin.hasMethod_iff.mp accepted
    exact nomatch refused.symm.trans read
  | number unread =>
    obtain ⟨fault, rfl⟩ := Block.exists_fault_of_numberD unread
    refine .number kind fun accepted => ?_
    obtain ⟨x, read, -⟩ := Block.hasFinite_iff.mp accepted
    exact nomatch unread.symm.trans read
  | infinite read infinite =>
    refine .number kind fun accepted => ?_
    obtain ⟨x, read', finite⟩ := Block.hasFinite_iff.mp accepted
    obtain rfl := Except.ok.inj (read.symm.trans read')
    exact infinite finite
  | @literal value top mid answered present unread =>
    refine .path kind fun names => ?_
    rcases valueCode_answers.mp answered with ⟨-, empty, -⟩ | ⟨child, s, found, made, stands, -⟩
    · exact present empty
    · rcases names child s value found made stands with empty | literal
      · exact present empty
      · rw [unread] at literal
        exact nomatch literal

/-- A block that can be reached is at fault. -/
def Blames (c : Compiler) (b : Block) (failure : Failure) : Prop :=
  ∃ r, c.catalogue.Reaches b r ∧ c.Fault r failure

/-- A declared input fails because of a block that can be reached through it, or because the
block in it makes no value, which is a fault of the block around it. -/
theorem failsBy_inputs {listing : Listing} (listed : c.catalogue.get? b.kind = some listing)
    (values : ∀ input child, b.plugged? input = some child →
      ∀ failure, (c.compile child).outcome = .error failure → c.Blames child failure)
    (statements : ∀ input, ∀ child ∈ b.sequenceIn input,
      ∀ failure, (c.compile child).outcome = .error failure → c.Blames child failure) :
    (c.holder b).FailsBy (c.Blames b) listing.blockType where
  valueCode name declared outer := by
    refine failsBy_valueCode (fun child found failure failed => ?_)
      (fun child s found made unfit => ?_) outer
    · obtain ⟨r, reaches, fault⟩ := values name child found failure failed
      exact ⟨r, .value listed declared found reaches, fault⟩
    · refine ⟨b, .self b, .notValue ⟨listing, listed, declared, found⟩ ?_⟩
      rintro ⟨t, done, fits⟩
      rw [made] at done
      exact unfit (Except.ok.inj done ▸ fits)
  sequenceCode name declared := by
    refine failsBy_sequenceCode fun child mem failure failed => ?_
    obtain ⟨r, reaches, fault⟩ := statements name child mem failure failed
    exact ⟨r, .statement listed declared mem reaches, fault⟩

/-- If a block fails, then because of a fault of a block that can be reached from it. -/
theorem blames_of_error (c : Compiler) (loaded : c.catalogue.Loaded) (b : Block) :
    ∀ failure, (c.compile b).outcome = .error failure → c.Blames b failure := by
  induction b using Block.induction with
  | step b values statements =>
    intro failure failed
    cases listed : c.catalogue.get? b.kind with
    | none =>
      rw [compile_of_unlisted listed] at failed
      split at failed
      · obtain rfl := Except.error.inj failed
        exact ⟨b, .self b, .unlisted listed⟩
      · exact nomatch failed
    | some listing =>
      have inputs := failsBy_inputs listed values statements
      rw [loaded.blockType_eq listed] at inputs
      refine blame_of_listed (P := c.Blames b) listed ?_ failed
      obtain ⟨blockType, generator⟩ := listing
      cases generator with
      | builtin k =>
        have kind : b.kind = k.blockType.id := loaded.id_of_builtin listed rfl
        exact k.failsBy_snippet inputs fun _ complaint =>
          ⟨b, .self b, .of_complaint kind complaint⟩
      | call item => exact item.failsBy_snippet inputs
      | literal item => exact item.failsBy_snippet inputs
      | recipe r => exact absurd rfl (loaded.not_recipe listed r)

/-! ### Trees -/

/-- **Exactly the trees of sound blocks are generated.** In strict mode, with packages taken in
but every built-in in its place, and on any stack: a block is generated if and only if every
block that can be reached from it through declared inputs is sound. If it fails, then because of
a fault of one of these, so in particular never for a field that is missing. -/
theorem generated_iff_sound (loaded : c.catalogue.Loaded)
    (kept : ∀ k : Builtin, c.catalogue.get? k.blockType.id = some ⟨k.blockType, .builtin k⟩)
    (strict : c.strict = true) (b : Block) (frames : List Usage) :
    ((∃ s, ((c.compile b).run frames).1 = .ok s) ↔
      ∀ r, c.catalogue.Reaches b r → c.Sound r) ∧
    ∀ failure, ((c.compile b).run frames).1 = .error failure →
      ∃ r, c.catalogue.Reaches b r ∧ c.Fault r failure := by
  rw [run_fst]
  refine ⟨⟨?_, fun sound => ?_⟩, c.blames_of_error loaded b⟩
  · rintro ⟨s, made⟩ r reaches
    obtain ⟨t, generated, -⟩ := generated_of_reaches loaded reaches made
    exact sound_of_generated loaded kept strict generated
  · cases outcome : (c.compile b).outcome with
    | ok s => exact ⟨s, rfl⟩
    | error failure =>
      obtain ⟨r, reaches, fault⟩ := c.blames_of_error loaded b failure outcome
      exact absurd (sound r reaches) fault.not_sound

/-- A block that asks for the import that the block in its slot names. -/
def requireOf (value : Block) : Block :=
  { id := "r", kind := "require", values := [("VALUE", value)] }

/-- A path is named by a text, and not by a number, although a number is a value as well. -/
theorem generated_iff_sound_of_require :
    let c : Compiler := { catalogue := .ofBuiltins }
    let path : Block := { id := "t", kind := "text", fields := [("TEXT", .text "os")] }
    let zero : Block := { id := "n", kind := "math_number" }
    (∀ r, c.catalogue.Reaches (requireOf path) r → c.Sound r) ∧
      (¬ ∀ r, c.catalogue.Reaches (requireOf zero) r → c.Sound r) ∧
      ∃ r, c.catalogue.Reaches (requireOf zero) r ∧
        c.Fault r (.badField "r" "VALUE" (.notLiteral "0")) := by
  intro c path zero
  have named := generated_iff_sound (c := c) .builtins Catalogue.get?_ofBuiltins_id rfl
    (requireOf path) []
  have counted := generated_iff_sound (c := c) .builtins Catalogue.get?_ofBuiltins_id rfl
    (requireOf zero) []
  have made : ((c.compile (requireOf path)).run []).1 =
      .ok { code := "", usage := { imports := ["os"] } } := by decide +kernel
  have failed : ((c.compile (requireOf zero)).run []).1 =
      .error (.badField "r" "VALUE" (.notLiteral "0")) := by decide +kernel
  refine ⟨named.1.mp ⟨_, made⟩, fun sound => ?_, counted.2 _ failed⟩
  obtain ⟨s, generated⟩ := counted.1.mpr sound
  exact nomatch failed.symm.trans generated

end Compiler

end Blockwork
