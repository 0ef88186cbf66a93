/-!
# Binding strength

How tightly the outermost operator of a generated expression binds. An expression needs
parentheses in a slot that asks for something tighter.
-/

namespace Blockwork

/-- Binding strength, tightest first. `loosest` is also what a slot asks for that never needs
parentheses. -/
inductive Precedence where
  | atomic
  | member
  | unary
  | multiplicative
  | additive
  | relational
  | and
  | or
  | loosest
deriving DecidableEq, Repr

namespace Precedence

/-- The place in the order from tight to loose. -/
def rank : Precedence → Nat
  | atomic => 0
  | member => 1
  | unary => 2
  | multiplicative => 3
  | additive => 4
  | relational => 5
  | and => 6
  | or => 7
  | loosest => 8

/-- Whether an expression of strength `inner` needs parentheses in a slot that asks for
`outer`. -/
def bracketedIn (inner outer : Precedence) : Bool :=
  outer.rank < inner.rank

end Precedence

end Blockwork
