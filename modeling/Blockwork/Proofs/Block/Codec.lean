import Blockwork.Proofs.Block.Document
import Blockwork.Proofs.Block.Numbers
import Blockwork.Proofs.Json.Gives

/-!
# Programs read back

A program is read back from its text (`Program.ofText_toText`) when every number in it is finite
and its document nests no deeper than documents may; otherwise nothing is read. The parts of a
block are read one after the other, each under a condition of its own (`Gives`), and the
conditions of all parts together are those of the block.
-/

namespace Blockwork

open Binary64 (AllFinite Faithful allFinite_append allFinite_nil faithful_append)

/-! ### Scalars and positions -/

theorem real?_real {x : Binary64} (faithful : x.isFinite = true → x.ReadsBack) :
    Gives (x.isFinite = true) x (Json.real? (.real x)) := by
  unfold Json.real
  refine ⟨fun finite => ?_, fun infinite => ?_⟩
  · rw [if_pos finite]
    exact faithful finite
  · rw [if_neg infinite]
    rfl

theorem Scalar.ofJson?_toJson (s : Scalar) (faithful : Faithful s.numbers) :
    Gives (AllFinite s.numbers) s (ofJson? s.toJson) := by
  cases s with
  | flag value => exact (Gives.pure _).congr (iff_of_true trivial allFinite_nil)
  | text value => exact (Gives.pure _).congr (iff_of_true trivial allFinite_nil)
  | number x =>
    have alone : AllFinite (Scalar.number x).numbers ↔ x.isFinite = true :=
      List.forall_mem_singleton
    have back := faithful x List.mem_cons_self
    rw [toJson]
    unfold Json.real
    refine ⟨fun finite => ?_, fun infinite => ?_⟩
    · rw [if_pos (alone.mp finite), ofJson?, back (alone.mp finite)]
      rfl
    · rw [if_neg fun finite => infinite (alone.mpr finite)]
      rfl

theorem Point.ofJson?_toJson (p : Point) (faithful : Faithful p.numbers) :
    Gives (AllFinite p.numbers) p (ofJson? p.toJson) := by
  have both : AllFinite p.numbers ↔ p.x.isFinite = true ∧ p.y.isFinite = true := by
    simp [AllFinite, numbers]
  have first := real?_real (faithful p.x List.mem_cons_self)
  have second := real?_real (faithful p.y (List.mem_cons_of_mem _ List.mem_cons_self))
  have members : Json.record? ["x", "y"] p.toJson = some [some (.real p.x), some (.real p.y)] :=
    Json.record?_present [("x", some (.real p.x)), ("y", some (.real p.y))] rfl (by decide)
  unfold ofJson?
  rw [members]
  refine (first.bind (second.bind (Gives.pure p))).congr ?_
  rw [and_true, both]

theorem Point.read?_toJson (position : Option Point)
    (faithful : Faithful (position.elim [] Point.numbers)) (room : Nat) :
    Gives (AllFinite (position.elim [] Point.numbers) ∧
        Json.depthOf? (position.map toJson) ≤ room) position
      (read? room (position.map toJson)) := by
  cases position with
  | none => exact (Gives.pure none).congr (iff_of_true trivial ⟨allFinite_nil, Nat.zero_le _⟩)
  | some p =>
    have depth : Json.depthOf? ((some p).map toJson) = 1 := p.depth_toJson
    have inside := p.ofJson?_toJson faithful
    rw [depth]
    cases room with
    | zero => exact ⟨fun both => absurd both.2 (by decide), fun _ => rfl⟩
    | succ room => exact (inside.map some).congr (and_iff_left (by omega)).symm

/-! ### Maps and lists -/

namespace Block

variable {α : Type} {p : Prop} {read : Nat → Json → Option α}

/-- A map is read back when its entries are, one level further in. -/
theorem readMap?_ofMap (read : Nat → Json → Option α) {values : List (String × α)}
    {members : List (String × Json)}
    (ascending : Entries.Ascending values)
    (inner : ∀ room, Gives (p ∧ Json.depthOfMembers members ≤ room) values
      (members.mapM fun member => (read room member.2).map fun value => (member.1, value)))
    (room : Nat) :
    Gives (p ∧ Json.depthOf? (Json.ofMap? members) ≤ room) values
      (readMap? room read (Json.ofMap? members)) := by
  cases members with
  | nil =>
    -- Without members nothing is read inside, and the condition there has to hold.
    have empty : some [] = some values ∧ p := by
      by_cases holds : p
      · exact ⟨(inner 0).1 ⟨holds, Nat.le_refl _⟩, holds⟩
      · exact nomatch (inner 0).2 fun both => holds both.1
    obtain ⟨same, holds⟩ := empty
    exact ⟨fun _ => same, fun fails => absurd ⟨holds, Nat.zero_le _⟩ fails⟩
  | cons member members =>
    have depth : Json.depthOf? (Json.ofMap? (member :: members)) =
        Json.depthOfMembers (member :: members) + 1 := by
      show Json.depth _ = _
      rw [Json.depth]
    rw [depth]
    cases room with
    | zero => exact ⟨fun both => absurd both.2 (by omega), fun _ => rfl⟩
    | succ room =>
      have kept := (inner room).map Entries.ofList
      rw [Entries.ofList_of_ascending ascending] at kept
      exact kept.congr (by rw [Nat.add_le_add_iff_right])

/-- A list is read back when its items are, one level further in. -/
theorem readList?_array {as : List α} {items : List Json}
    (inner : ∀ room, Gives (p ∧ Json.depthOfItems items ≤ room) as (items.mapM (read room)))
    (room : Nat) :
    Gives (p ∧ (Json.array items).depth ≤ room) as (readList? room read (.array items)) := by
  rw [Json.depth]
  cases room with
  | zero => exact ⟨fun both => absurd both.2 (by omega), fun _ => rfl⟩
  | succ room => exact (inner room).congr (by rw [Nat.add_le_add_iff_right])

theorem readMap?_zero (read : Nat → Json → Option α) :
    readMap? 0 read = fun member => if member.isNone then some [] else none := by
  funext member
  cases member with
  | none => rfl
  | some j => cases j <;> rfl

theorem readMap?_succ (read : Nat → Json → Option α) (room : Nat) :
    readMap? (room + 1) read = readMap? (room + 1) fun _ => read room := by
  funext member
  cases member with
  | none => rfl
  | some j => cases j <;> rfl

theorem readList?_zero (read read' : Nat → Json → Option α) :
    readList? 0 read = readList? 0 read' := by
  funext j
  cases j <;> rfl

theorem readList?_succ (read : Nat → Json → Option α) (room : Nat) :
    readList? (room + 1) read = readList? (room + 1) fun _ => read room := by
  funext j
  cases j <;> rfl

/-! ### Blocks -/

/-- Reading a block takes one level of the room, and what stands in the block gets the rest. -/
theorem read?_succ (room : Nat) (j : Json) :
    read? (room + 1) j = (do
      let [id, kind, position, fields, values, statements] ←
        j.record? ["id", "type", "position", "fields", "values", "statements"] | none
      let id ← Json.required Json.text? id
      let kind ← Json.required Json.text? kind
      let position ← Point.read? room position
      let fields ← readMap? room (fun _ => Scalar.ofJson?) fields
      let values ← readMap? room read? values
      let statements ← readMap? room (fun room => readList? room read?) statements
      some { id, kind, position, fields, values, statements }) := by
  -- The definition spells out what is left of the room, so that its recursion is on a number.
  rcases room with _ | _ | room
  · have lists : readMap? 0 (fun room => readList? room read?) =
        readMap? 0 (fun room => readList? room fun _ _ => none) := by
      rw [readMap?_zero, readMap?_zero]
    have choice : ∀ (c : Prop) [Decidable c] (next : List (String × Block) → Option Block),
        (if c then some [] else none) >>= next = if c then some [] >>= next else none >>= next :=
      fun c _ next => apply_ite (· >>= next) c (some []) none
    rw [readMap?_zero read?, lists]
    simp only [choice]
    delta read?
    rfl
  · have lists : readMap? 1 (fun room => readList? room read?) =
        readMap? 1 (fun room => readList? room fun _ _ => none) :=
      calc
        readMap? 1 (fun room => readList? room read?)
        _ = readMap? 1 (fun _ => readList? 0 read?) := readMap?_succ _ 0
        _ = readMap? 1 (fun _ => readList? 0 fun _ _ => none) := by rw [readList?_zero]
        _ = readMap? 1 (fun room => readList? room fun _ _ => none) :=
          (readMap?_succ (fun room => readList? room fun _ _ => none) 0).symm
    rw [readMap?_succ read?, lists]
    delta read?
    rfl
  · have lists : readMap? (room + 2) (fun room => readList? room read?) =
        readMap? (room + 2) (fun _ => readList? (room + 1) fun _ => read? room) :=
      calc
        _ = readMap? (room + 2) (fun _ => readList? (room + 1) read?) := readMap?_succ _ _
        _ = _ := by rw [readList?_succ]
    rw [readMap?_succ read?, lists]
    delta read?
    rfl

/-- Where nothing is read, there are no numbers, and no room is needed. -/
theorem gives_nothing {β : Type} (f : β → Option α) (room : Nat) :
    Gives (AllFinite [] ∧ 0 ≤ room) [] (([] : List β).mapM f) :=
  (Gives.nil f).congr (iff_of_true trivial ⟨allFinite_nil, Nat.zero_le room⟩)

theorem readFields_toJson (fields : List (String × Scalar))
    (faithful : Faithful (fields.flatMap (·.2.numbers))) (room : Nat) :
    Gives (AllFinite (fields.flatMap (·.2.numbers)) ∧
        Json.depthOfMembers (fields.map fun field => (field.1, field.2.toJson)) ≤ room) fields
      ((fields.map fun field => (field.1, field.2.toJson)).mapM fun member =>
        (Scalar.ofJson? member.2).map fun value => (member.1, value)) := by
  induction fields with
  | nil => exact gives_nothing _ room
  | cons field rest ih =>
    obtain ⟨name, s⟩ := field
    rw [List.flatMap_cons] at faithful ⊢
    obtain ⟨here, there⟩ := faithful_append.mp faithful
    refine ((s.ofJson?_toJson here).entry (ih there)).congr ?_
    rw [allFinite_append, List.map_cons, Json.depthOfMembers, s.depth_toJson, Nat.zero_max,
      and_assoc]

mutual

/-- A block is read back from its document, when its numbers are finite and there is room. -/
theorem read?_toJson (b : Block) (ordered : b.Ordered) (faithful : Faithful b.numbers)
    (room : Nat) :
    Gives (AllFinite b.numbers ∧ b.toJson.depth ≤ room) b (read? room b.toJson) := by
  obtain ⟨id, kind, position, fields, values, statements⟩ := b
  obtain ⟨fieldsAscend, valuesAscend, statementsAscend, inValues, inStatements⟩ := ordered
  rw [numbers, faithful_append, faithful_append, faithful_append] at faithful
  obtain ⟨placed, filled, plugged, attached⟩ := faithful
  rw [toJson_eq, Json.depth]
  cases room with
  | zero => exact ⟨fun both => absurd both.2 (by omega), fun _ => rfl⟩
  | succ room =>
    rw [read?_succ, record?_record]
    have first : Gives True id (Json.required Json.text? (some (.string id))) := Gives.pure id
    have second : Gives True kind (Json.required Json.text? (some (.string kind))) :=
      Gives.pure kind
    have third := Point.read?_toJson position placed room
    have fourth := readMap?_ofMap (fun _ => Scalar.ofJson?) fieldsAscend
      (readFields_toJson fields filled) room
    have fifth := readMap?_ofMap read? valuesAscend (readValues_toJson values inValues plugged) room
    have sixth := readMap?_ofMap (fun room => readList? room read?) statementsAscend
      (readStatements_toJson statements inStatements attached) room
    rw [Option.bind_eq_bind, Option.bind_some]
    simp only [record, List.map_cons, List.map_nil]
    refine Gives.congr (first.bind (second.bind (third.bind (fourth.bind
      (fifth.bind (sixth.bind (Gives.pure _))))))) ?_
    rw [numbers, allFinite_append, allFinite_append, allFinite_append, Nat.add_le_add_iff_right,
      Json.depthOfMembers_present]
    simp only [List.forall_mem_cons, Json.depthOf?_string, Nat.zero_le, List.not_mem_nil,
      false_implies, implies_true, true_and, and_true]
    constructor
    · rintro ⟨positionFits, fieldsFit, valuesFit, statementsFit⟩
      exact ⟨⟨positionFits.1, fieldsFit.1, valuesFit.1, statementsFit.1⟩, positionFits.2,
        fieldsFit.2, valuesFit.2, statementsFit.2⟩
    · rintro ⟨⟨finite, finiteFields, finiteValues, finiteStatements⟩, room₁, room₂, room₃, room₄⟩
      exact ⟨⟨finite, room₁⟩, ⟨finiteFields, room₂⟩, ⟨finiteValues, room₃⟩,
        ⟨finiteStatements, room₄⟩⟩

/-- The blocks of value slots are read back. -/
theorem readValues_toJson (values : List (String × Block)) (ordered : OrderedValues values)
    (faithful : Faithful (numbersOfValues values)) (room : Nat) :
    Gives (AllFinite (numbersOfValues values) ∧
        Json.depthOfMembers (valuesToJson values) ≤ room) values
      ((valuesToJson values).mapM fun member =>
        (read? room member.2).map fun value => (member.1, value)) := by
  cases values with
  | nil =>
    rw [valuesToJson]
    exact gives_nothing _ room
  | cons entry rest =>
    obtain ⟨name, b⟩ := entry
    rw [numbersOfValues, faithful_append] at faithful
    have first := read?_toJson b ordered.1 faithful.1 room
    have others := readValues_toJson rest ordered.2 faithful.2 room
    rw [valuesToJson]
    refine (first.entry others).congr ?_
    rw [numbersOfValues, allFinite_append, Json.depthOfMembers, Nat.max_le, and_and_and_comm]

/-- The blocks of statement inputs are read back. -/
theorem readStatements_toJson (statements : List (String × List Block))
    (ordered : OrderedStatements statements) (faithful : Faithful (numbersOfStatements statements))
    (room : Nat) :
    Gives (AllFinite (numbersOfStatements statements) ∧
        Json.depthOfMembers (statementsToJson statements) ≤ room) statements
      ((statementsToJson statements).mapM fun member =>
        (readList? room read? member.2).map fun value => (member.1, value)) := by
  cases statements with
  | nil =>
    rw [statementsToJson]
    exact gives_nothing _ room
  | cons entry rest =>
    obtain ⟨name, bs⟩ := entry
    rw [numbersOfStatements, faithful_append] at faithful
    have first := readList?_array (readSequence_toJson bs ordered.1 faithful.1) room
    have others := readStatements_toJson rest ordered.2 faithful.2 room
    rw [statementsToJson]
    refine (first.entry others).congr ?_
    rw [numbersOfStatements, allFinite_append, Json.depthOfMembers, Nat.max_le, and_and_and_comm]

/-- The blocks of a sequence are read back. -/
theorem readSequence_toJson (bs : List Block) (ordered : OrderedSequence bs)
    (faithful : Faithful (numbersOfSequence bs)) (room : Nat) :
    Gives (AllFinite (numbersOfSequence bs) ∧ Json.depthOfItems (sequenceToJson bs) ≤ room) bs
      ((sequenceToJson bs).mapM (read? room)) := by
  cases bs with
  | nil =>
    rw [sequenceToJson]
    exact gives_nothing _ room
  | cons b rest =>
    rw [numbersOfSequence, faithful_append] at faithful
    have first := read?_toJson b ordered.1 faithful.1 room
    have others := readSequence_toJson rest ordered.2 faithful.2 room
    rw [sequenceToJson]
    refine (first.cons others).congr ?_
    rw [numbersOfSequence, allFinite_append, Json.depthOfItems, Nat.max_le, and_and_and_comm]

end

end Block

/-! ### Programs -/

namespace Program

theorem read?_toJson (p : Program) (ordered : Block.OrderedSequence p.blocks)
    (faithful : Faithful p.numbers) (room : Nat) :
    Gives (AllFinite p.numbers ∧ p.toJson.depth ≤ room) p (read? room p.toJson) := by
  have members : Json.record? ["blocks"] p.toJson =
      some [some (.array (Block.sequenceToJson p.blocks))] :=
    Json.record?_present [("blocks", some (.array (Block.sequenceToJson p.blocks)))] rfl
      (by decide)
  have depth : p.toJson.depth = (Json.array (Block.sequenceToJson p.blocks)).depth + 1 := by
    simp only [toJson, Json.depth, Json.depthOfMembers, Nat.max_zero]
  rw [depth]
  cases room with
  | zero => exact ⟨fun both => absurd both.2 (by omega), fun _ => rfl⟩
  | succ room =>
    have inside := Block.readList?_array (Block.readSequence_toJson p.blocks ordered faithful) room
    rw [read?, members]
    refine (inside.bind (Gives.pure p)).congr ?_
    rw [and_true, Nat.add_le_add_iff_right]
    rfl

/-- **The codec of programs loses nothing.** Of a program whose finite numbers are read back from
their spelling, the text is read as that program exactly when all of its numbers are finite and
its document nests no deeper than documents may. In every other case it is read as no program. -/
theorem ofText_toText (p : Program) (ordered : Block.OrderedSequence p.blocks)
    (faithful : ∀ x ∈ p.numbers, x.isFinite = true → x.ReadsBack) :
    (ofText p.toText = .ok p ↔
        (∀ x ∈ p.numbers, x.isFinite = true) ∧ p.toJson.depth ≤ Json.maxDepth) ∧
      (¬ ((∀ x ∈ p.numbers, x.isFinite = true) ∧ p.toJson.depth ≤ Json.maxDepth) →
        ofText p.toText = .error .badProgram) := by
  obtain ⟨fits, fails⟩ := p.read?_toJson ordered faithful Json.maxDepth
  have read : (Json.parse? p.toText).bind (read? Json.maxDepth) =
      read? Json.maxDepth p.toJson := by
    rw [toText, Json.parse?_compact p.proper_toJson]
    rfl
  have otherwise : ¬ (AllFinite p.numbers ∧ p.toJson.depth ≤ Json.maxDepth) →
      ofText p.toText = .error .badProgram := by
    intro outside
    unfold ofText
    rw [read, fails outside]
  refine ⟨⟨fun same => ?_, fun inside => ?_⟩, otherwise⟩
  · refine Classical.byContradiction fun outside => ?_
    rw [otherwise outside] at same
    exact nomatch same
  · unfold ofText
    rw [read, fits inside]

theorem ofText_toText_of_number :
    let half : Binary64 := ⟨false, 1022 * 2 ^ 52, by decide⟩
    let b : Block :=
      { id := "n", kind := "math_number", position := some ⟨half, .signedZero true⟩,
        fields := [("NUM", .number half)], statements := [("empty", [])] }
    ofText (toText ⟨[b]⟩) = .ok ⟨[b]⟩ := by
  intro half b
  have ordered : Block.OrderedSequence [b] := by
    simp [b, Block.OrderedSequence, Block.Ordered, Block.OrderedValues, Block.OrderedStatements,
      Entries.Ascending]
  refine (ofText_toText ⟨[b]⟩ ordered ?_).1.mpr ⟨?_, ?_⟩ <;> decide +kernel

-- The number 6.674e215 is finite, but its spelling is read as the number next to it.
example : let x : Binary64 := ⟨false, 7835975200628752406, by decide⟩
    x.isFinite = true ∧ ¬ x.ReadsBack := by
  decide +kernel

end Program

end Blockwork
