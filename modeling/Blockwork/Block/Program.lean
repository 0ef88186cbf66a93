import Blockwork.Block.Basic

/-!
# Programs and the order of their roots

A program is a list of root blocks. Code is generated for them from top to bottom and from
left to right, roots without a position first; roots that agree in this keep the order in
which the program lists them.
-/

namespace Blockwork

/-- A visual program: its root blocks as they are listed. -/
structure Program where
  blocks : List Block := []
deriving Inhabited

/-- What the order of the roots looks at: the vertical place, then the horizontal one. -/
def Point.orderKey (p : Point) : Int × Int :=
  (p.y.orderKey, p.x.orderKey)

/-- Whether a root with the first position may stand before one with the second. -/
def Point.mayPrecede : Option Point → Option Point → Bool
  | none, _ => true
  | some _, none => false
  | some p, some q =>
    p.orderKey.1 < q.orderKey.1 || (p.orderKey.1 == q.orderKey.1 && p.orderKey.2 ≤ q.orderKey.2)

namespace Program

/-- Whether there is no root. -/
def isEmpty (p : Program) : Bool :=
  p.blocks.isEmpty

/-- The roots in the order in which code is generated for them. -/
def rootsInOrder (p : Program) : List Block :=
  p.blocks.mergeSort fun a b => Point.mayPrecede a.position b.position

/-- The program as it is shared: a single root loses its position. -/
def withoutLonePosition (p : Program) : Program :=
  match p.blocks with
  | [root] => ⟨[{ root with position := none }]⟩
  | _ => p

end Program

end Blockwork
