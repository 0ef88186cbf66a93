import Blockwork.Generation.Compiler

/-!
# Queries

A compiler is asked for the snippet of a block, for the code in one of the inputs of a block,
for the packages noted and for the imports that they call for. A run answers such queries one
after the other on one stack: each starts on the stack that the one before left, also when that
one failed.
-/

namespace Blockwork

/-- What a compiler can be asked for. -/
inductive Query where
  | snippet (b : Block)
  | valueCode (b : Block) (input : String) (outer : Precedence)
  | sequenceCode (b : Block) (input : String)
  | indentedCode (b : Block) (input : String)
  | note (packages : List String)
  | noted
  | neededImports (always : List String)
  | isAvailable (path : String)

/-- The kind of answer that a query has. -/
def Query.Answer : Query → Type
  | snippet _ => Snippet
  | valueCode _ _ _ => String
  | sequenceCode _ _ => String
  | indentedCode _ _ => String
  | note _ => Unit
  | noted => NameSet
  | neededImports _ => List String
  | isAvailable _ => Bool

namespace Compiler

/-- The action that answers a query. A block whose input is asked for is not generated itself. -/
def action (c : Compiler) : (q : Query) → Gen q.Answer
  | .snippet b => c.compile b
  | .valueCode b input outer => (c.holder b).valueCode input outer
  | .sequenceCode b input => (c.holder b).sequenceCode input
  | .indentedCode b input => (c.holder b).indentedCode c.surroundings input
  | .note packages => Gen.note packages
  | .noted => Gen.noted
  | .neededImports always => c.surroundings.neededImports always
  | .isAvailable path => Gen.lift (.ok (c.surroundings.isAvailable path))

/-- Answers queries one after the other, each on the stack that the one before left. -/
def answerAll (c : Compiler) :
    List Query → List Usage → List ((q : Query) × Except Failure q.Answer) × List Usage
  | [], frames => ([], frames)
  | q :: rest, frames =>
    let (answer, frames) := (c.action q).run frames
    let (others, frames) := c.answerAll rest frames
    (⟨q, answer⟩ :: others, frames)

end Compiler

end Blockwork
