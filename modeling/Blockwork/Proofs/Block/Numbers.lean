import Blockwork.Block.Program
import Blockwork.Json.Reader

/-!
# The numbers of a program

The coordinates of positions and the numbers in fields, at any depth, and what is said of all of
them: that they are finite, and that the finite ones are read back from their spellings.
-/

namespace Blockwork

namespace Binary64

/-- The number is read back from its spelling. Numerals are read by scaling, which can miss the
nearest number by a little, so that this is not so of every finite number. -/
def ReadsBack (x : Binary64) : Prop :=
  (Numeral.ofBinary64 x).toBinary64? = some x

instance (x : Binary64) : Decidable x.ReadsBack :=
  inferInstanceAs (Decidable (_ = _))

/-- All these numbers are finite. -/
def AllFinite (xs : List Binary64) : Prop :=
  ∀ x ∈ xs, x.isFinite = true

theorem allFinite_nil : AllFinite [] :=
  fun _ mem => absurd mem List.not_mem_nil

theorem allFinite_append {xs ys : List Binary64} :
    AllFinite (xs ++ ys) ↔ AllFinite xs ∧ AllFinite ys :=
  List.forall_mem_append

/-- The numbers are read back as far as they are finite. -/
def Faithful (xs : List Binary64) : Prop :=
  ∀ x ∈ xs, x.isFinite = true → x.ReadsBack

theorem faithful_append {xs ys : List Binary64} :
    Faithful (xs ++ ys) ↔ Faithful xs ∧ Faithful ys :=
  List.forall_mem_append

end Binary64

/-- The numbers of a field's value. -/
def Scalar.numbers : Scalar → List Binary64
  | .number x => [x]
  | _ => []

/-- The numbers of a position. -/
def Point.numbers (p : Point) : List Binary64 :=
  [p.x, p.y]

namespace Block

mutual

/-- Every number in a block: those of its position and its fields, and of the blocks inside it. -/
def numbers : Block → List Binary64
  | ⟨_, _, position, fields, values, statements⟩ =>
    position.elim [] Point.numbers ++
      (fields.flatMap (·.2.numbers) ++ (numbersOfValues values ++ numbersOfStatements statements))

/-- The numbers in the blocks of value slots. -/
def numbersOfValues : List (String × Block) → List Binary64
  | [] => []
  | (_, b) :: rest => b.numbers ++ numbersOfValues rest

/-- The numbers in the blocks of statement inputs. -/
def numbersOfStatements : List (String × List Block) → List Binary64
  | [] => []
  | (_, bs) :: rest => numbersOfSequence bs ++ numbersOfStatements rest

/-- The numbers in the blocks of a sequence. -/
def numbersOfSequence : List Block → List Binary64
  | [] => []
  | b :: rest => b.numbers ++ numbersOfSequence rest

end

end Block

/-- Every number in a program. -/
def Program.numbers (p : Program) : List Binary64 :=
  Block.numbersOfSequence p.blocks

end Blockwork
