import Blockwork.Text.Lines

/-!
# Parameters

Parameters of functions and fields of structs: a name and a type. `Parameter.readList`
reads a parameter list, in which commas inside brackets belong to a type.
-/

namespace Blockwork

/-- A typed parameter of a function or field of a struct; the type may be empty. -/
structure Parameter where
  name : String
  type : String
deriving DecidableEq, Repr

namespace Parameter

/-- Whether a slot for it takes strings. -/
def takesText (p : Parameter) : Bool :=
  Text.trim p.type = "string"

/-- How a slot for it is labelled. -/
def label (p : Parameter) : String :=
  if p.type.isEmpty then p.name else s!"{p.name} ({p.type})"

/-- An opening bracket of any kind. -/
def isOpening (c : Char) : Bool :=
  c == '(' || c == '[' || c == '{'

/-- A closing bracket of any kind. -/
def isClosing (c : Char) : Bool :=
  c == ')' || c == ']' || c == '}'

/-- The bracket depth behind a character. A closing bracket too many does not count. -/
def depthAfter (depth : Nat) (c : Char) : Nat :=
  if isOpening c then depth + 1 else if isClosing c then depth - 1 else depth

/-- The pieces between the commas that stand outside all brackets; never an empty list. -/
def cutOutside : Nat → List Char → List (List Char)
  | _, [] => [[]]
  | depth, c :: rest =>
    if c = ',' ∧ depth = 0 then [] :: cutOutside 0 rest
    else
      match cutOutside (depthAfter depth c) rest with
      | [] => [[c]]
      | first :: others => (c :: first) :: others

/-- A piece of a parameter list: its name ends at the first blank, and the rest is its type. -/
def ofPiece (piece : List Char) : Parameter where
  name := String.ofList (piece.takeWhile fun c => !Text.isBlank c)
  type := String.ofList <| Text.trimWhere Text.isBlank <|
    piece.dropWhile fun c => !Text.isBlank c

/-- Reads a parameter list. Blank pieces are passed over. -/
def readList (text : String) : List Parameter :=
  let pieces := (cutOutside 0 text.toList).map (Text.trimWhere Text.isBlank)
  (pieces.filter fun piece => !piece.isEmpty).map ofPiece

theorem cutOutside_ne_nil (depth : Nat) (cs : List Char) : cutOutside depth cs ≠ [] := by
  cases cs with
  | nil => simp [cutOutside]
  | cons c rest =>
    rw [cutOutside]
    split
    · simp
    · split <;> simp

end Parameter

end Blockwork
