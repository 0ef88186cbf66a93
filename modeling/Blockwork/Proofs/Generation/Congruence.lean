import Blockwork.Generation.Compiler
import Blockwork.Proofs.Catalogue.Loaded

/-!
# Two runs of a generator

A generator reads the fields that its block's type declares, asks for the codes of the inputs
that it declares, and puts these together in sequence. So whatever relates the codes of the
inputs of two blocks, and is kept by sequencing, relates what the blocks generate:

* **the relation** — `Gen.Congruence`: what sequencing keeps;
* **the blocks** — `Holder.Related`: the blocks agree in the declared fields, and the codes of
  the declared inputs are related;
* **the generators** — `Generator.related`: one pass over all of them, for any such relation.
-/

namespace Blockwork

/-- A relation between actions that sequencing keeps, and that holds between an action on the
innermost frame and itself. -/
structure Gen.Congruence (rel : {α : Type} → Gen α → Gen α → Prop) : Prop where
  pure : ∀ {α : Type} (a : α), rel (Pure.pure a) (Pure.pure a)
  note : ∀ packages, rel (Gen.note packages) (Gen.note packages)
  noted : rel Gen.noted Gen.noted
  bind : ∀ {α β : Type} {action action' : Gen α} {next next' : α → Gen β},
    rel action action' → (∀ a, rel (next a) (next' a)) →
      rel (action >>= next) (action' >>= next')

/-- The blocks of both holders agree in the fields that a block type declares, and the codes of
the inputs that it declares are related. So are the failures that the blocks report about fields
of their own. -/
structure Holder.Related (rel : {α : Type} → Gen α → Gen α → Prop) (t : BlockType)
    (h h' : Holder) : Prop where
  scalar? : ∀ name, t.hasField name = true → h.block.scalar? name = h'.block.scalar? name
  valueCode : ∀ name, t.hasValue name = true →
    ∀ outer, rel (h.valueCode name outer) (h'.valueCode name outer)
  sequenceCode : ∀ name, t.hasStatement name = true →
    rel (h.sequenceCode name) (h'.sequenceCode name)
  badField : ∀ {α : Type} name fault, rel (Gen.fail (.badField h.block.id name fault) : Gen α)
    (Gen.fail (.badField h'.block.id name fault))
  missingField : ∀ {α : Type} name, rel (Gen.fail (.missingField h.block.id name) : Gen α)
    (Gen.fail (.missingField h'.block.id name))

/-! ### Reading fields -/

/-- Two blocks with these ids read the same in their fields, or complain in the same way. -/
inductive SameReading (id id' : String) {α : Type} :
    Except Failure α → Except Failure α → Prop where
  | value (a : α) : SameReading id id' (.ok a) (.ok a)
  | bad (name : String) (fault : FieldFault) :
      SameReading id id' (.error (.badField id name fault)) (.error (.badField id' name fault))
  | missing (name : String) :
      SameReading id id' (.error (.missingField id name)) (.error (.missingField id' name))

namespace Block

variable {b b' : Block} {name : String} (same : b.scalar? name = b'.scalar? name)

include same

theorem textD_congr (default : String) : b.textD name default = b'.textD name default := by
  unfold textD
  rw [same]

theorem flagD_congr (default : Bool) : b.flagD name default = b'.flagD name default := by
  unfold flagD
  rw [same]

theorem sameReading_needText :
    SameReading b.id b'.id (b.needText name) (b'.needText name) := by
  unfold needText
  rw [← same]
  cases b.scalar? name with
  | none => exact .missing name
  | some value => exact .value _

theorem sameReading_numberD (default : Binary64) :
    SameReading b.id b'.id (b.numberD name default) (b'.numberD name default) := by
  unfold numberD
  rw [← same]
  split
  · exact .value _
  · exact .value _
  · split
    · exact .value _
    · exact .bad _ _
  · exact .bad _ _

end Block

theorem Builtin.sameReading_portOf {b b' : Block} (same : b.scalar? "port" = b'.scalar? "port") :
    SameReading b.id b'.id (portOf b) (portOf b') := by
  have read := Block.sameReading_numberD same defaultPort
  unfold portOf
  generalize b.numberD "port" defaultPort = port, b'.numberD "port" defaultPort = port' at read
  cases read with
  | bad name fault => exact .bad name fault
  | missing name => exact .missing name
  | value x =>
    simp only [bind, Except.bind]
    split
    · split
      · exact .value _
      · exact .bad _ _
    · exact .bad _ _

theorem Builtin.sameReading_methodOf {b b' : Block}
    (same : b.scalar? "method" = b'.scalar? "method") :
    SameReading b.id b'.id (methodOf b) (methodOf b') := by
  unfold methodOf
  rw [Block.textD_congr same]
  simp only
  split
  · exact .value _
  · split
    · exact .value _
    · exact .bad _ _

/-! ### The parts of generators -/

variable {rel : {α : Type} → Gen α → Gen α → Prop} {t : BlockType} {h h' : Holder}
  {env : Surroundings}

theorem Surroundings.related_neededImports (congruence : Gen.Congruence rel)
    (env : Surroundings) (always : List String) :
    rel (env.neededImports always) (env.neededImports always) :=
  congruence.bind congruence.noted fun _ => congruence.pure _

namespace Holder.Related

theorem lift (congruence : Gen.Congruence rel) (related : Related rel t h h') {α : Type}
    {outcome outcome' : Except Failure α}
    (same : SameReading h.block.id h'.block.id outcome outcome') :
    rel (Gen.lift outcome) (Gen.lift outcome') := by
  cases same with
  | value a => exact congruence.pure a
  | bad name fault => exact related.badField name fault
  | missing name => exact related.missingField name

theorem textD (related : Related rel t h h') (name : String)
    (declared : t.hasField name = true) (default : String) :
    h.block.textD name default = h'.block.textD name default :=
  Block.textD_congr (related.scalar? name declared) default

theorem indentedCode (congruence : Gen.Congruence rel) (related : Related rel t h h')
    (name : String) (declared : t.hasStatement name = true) :
    rel (h.indentedCode env name) (h'.indentedCode env name) :=
  congruence.bind (related.sequenceCode name declared) fun _ => congruence.pure _

theorem arguments (congruence : Gen.Congruence rel) (related : Related rel t h h')
    {parameters : List Parameter} (declared : ∀ p ∈ parameters, t.hasValue p.name = true) :
    rel (h.arguments parameters) (h'.arguments parameters) := by
  induction parameters with
  | nil => exact congruence.pure _
  | cons p rest ih =>
    refine congruence.bind (related.valueCode p.name (declared p List.mem_cons_self) _) ?_
    intro value
    refine congruence.bind (ih fun other mem => declared other (List.mem_cons_of_mem _ mem)) ?_
    intro others
    exact congruence.pure _

end Holder.Related

/-! ### Generators -/

/-- What relates the inputs of two blocks relates what a built-in generates for them. -/
theorem Builtin.related (congruence : Gen.Congruence rel) (k : Builtin)
    (related : Holder.Related rel k.blockType h h') :
    rel (k.snippet env h) (k.snippet env h') := by
  cases k with
  | require =>
    refine congruence.bind (related.valueCode "VALUE" rfl _) ?_
    intro value
    split
    · exact congruence.pure _
    · split
      · exact related.badField _ _
      · split <;> exact congruence.pure _
  | main =>
    exact congruence.bind (related.indentedCode congruence "children" rfl) fun _ =>
      congruence.bind (env.related_neededImports congruence _) fun _ => congruence.pure _
  | server =>
    have port := sameReading_portOf (related.scalar? "port" rfl)
    show rel (serverSnippet env h) (serverSnippet env h')
    unfold serverSnippet
    rw [related.textD "hostname" rfl]
    exact congruence.bind (related.lift congruence port) fun _ =>
      congruence.bind (related.indentedCode congruence "children" rfl) fun _ =>
        congruence.bind (congruence.note _) fun _ =>
          congruence.bind (env.related_neededImports congruence _) fun _ => congruence.pure _
  | routeGroup =>
    exact congruence.bind (related.indentedCode congruence "NAME" rfl) fun _ =>
      congruence.pure _
  | route =>
    have method := sameReading_methodOf (related.scalar? "method" rfl)
    show rel (routeSnippet env h) (routeSnippet env h')
    unfold routeSnippet
    rw [related.textD "path" rfl, related.textD "handler" rfl]
    exact congruence.bind (related.lift congruence method) fun _ =>
      congruence.bind (related.indentedCode congruence "sub" rfl) fun _ =>
        congruence.bind (congruence.note _) fun _ => congruence.pure _
  | onStart =>
    exact congruence.bind (related.sequenceCode "NAME" rfl) fun _ => congruence.pure _
  | onShutdown =>
    exact congruence.bind (related.indentedCode congruence "NAME" rfl) fun _ =>
      congruence.pure _
  | line =>
    show rel (lineSnippet h) (lineSnippet h')
    unfold lineSnippet
    rw [related.textD "line" rfl]
    simp only
    split
    · exact congruence.pure _
    · exact congruence.bind (congruence.note _) fun _ => congruence.pure _
  | map =>
    exact congruence.bind (related.indentedCode congruence "ints" rfl) fun _ =>
      congruence.pure _
  | mapField =>
    show rel (mapFieldSnippet h) (mapFieldSnippet h')
    unfold mapFieldSnippet
    rw [related.textD "key" rfl]
    exact congruence.bind (related.valueCode "NAME" rfl _) fun _ => congruence.pure _
  | handler =>
    show rel (handlerSnippet h) (handlerSnippet h')
    unfold handlerSnippet
    rw [related.textD "path" rfl, related.textD "func" rfl]
    simp only
    split
    · exact congruence.pure _
    · exact congruence.bind (congruence.note _) fun _ => congruence.pure _
  | text =>
    show rel (textSnippet h) (textSnippet h')
    unfold textSnippet
    rw [related.textD "TEXT" rfl]
    exact congruence.pure _
  | number =>
    have number := Block.sameReading_numberD (related.scalar? "NUM" rfl) .zero
    refine congruence.bind (related.lift congruence number) ?_
    intro x
    split
    · exact congruence.pure _
    · exact related.badField _ _
  | boolean =>
    show rel (booleanSnippet h) (booleanSnippet h')
    unfold booleanSnippet
    rw [Block.flagD_congr (related.scalar? "BOOL" rfl)]
    exact congruence.pure _

/-- An item's block type declares a slot for each parameter. -/
theorem PackageItem.any_slots_iff {item : PackageItem} {name : String} :
    (item.slots.any fun input => input.name = name && input.kind matches .value _) = true ↔
      ∃ p ∈ item.parameters, p.name = name := by
  unfold slots Input.value
  rw [List.any_map, List.any_eq_true]
  simp

theorem CallItem.hasValue_iff {item : CallItem} {name : String} :
    item.blockType.hasValue name = true ↔ ∃ p ∈ item.parameters, p.name = name :=
  PackageItem.any_slots_iff

theorem LiteralItem.hasValue_iff {item : LiteralItem} {name : String} :
    item.blockType.hasValue name = true ↔ ∃ p ∈ item.parameters, p.name = name := by
  have others : item.blockType.hasValue name = ((item.slots.any fun input =>
      input.name = name && input.kind matches .value _) || (_ && false || false)) :=
    List.any_append
  rw [others, Bool.and_false, Bool.or_false, Bool.or_false, PackageItem.any_slots_iff]

theorem LiteralItem.hasField_blockType (item : LiteralItem) :
    item.blockType.hasField addressField = true := by
  unfold BlockType.hasField blockType
  rw [List.any_append, Bool.or_eq_true]
  exact .inr rfl

/-- What relates the inputs of two blocks relates what they generate. -/
theorem Generator.related (congruence : Gen.Congruence rel) (g : Generator)
    (related : Holder.Related rel g.blockType h h') :
    rel (g.snippet env h) (g.snippet env h') := by
  cases g with
  | builtin k => exact k.related congruence related
  | call item =>
    have slots : ∀ p ∈ item.parameters, item.blockType.hasValue p.name = true :=
      fun p mem => CallItem.hasValue_iff.mpr ⟨p, mem, rfl⟩
    exact congruence.bind (related.arguments congruence slots) fun _ => congruence.pure _
  | literal item =>
    have slots : ∀ p ∈ item.parameters, item.blockType.hasValue p.name = true :=
      fun p mem => LiteralItem.hasValue_iff.mpr ⟨p, mem, rfl⟩
    have address := related.scalar? LiteralItem.addressField item.hasField_blockType
    show rel (item.snippet h) (item.snippet h')
    unfold LiteralItem.snippet
    rw [Block.flagD_congr address]
    exact congruence.bind (related.arguments congruence slots) fun _ => congruence.pure _
  | recipe r =>
    have code := Block.sameReading_needText (related.scalar? "code" rfl)
    exact congruence.bind (related.lift congruence code) fun _ =>
      congruence.bind (congruence.note _) fun _ =>
        congruence.bind (related.valueCode "X" rfl _) fun _ =>
          congruence.bind (related.indentedCode congruence "body" rfl) fun _ =>
            congruence.bind congruence.noted fun _ => congruence.pure _

end Blockwork
