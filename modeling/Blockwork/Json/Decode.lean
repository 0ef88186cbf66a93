import Blockwork.Json.Reader

/-!
# Reading values out of documents

A *record* is written as an object with named members or as a list of them in a fixed order.
`record?` finds its members by either form; a member that is not there is `none`. Documents
that are used may nest at most `maxDepth` lists and objects deep. A reader of nested documents
therefore takes the *room* that is left, and each list or object it enters takes one level.
-/

namespace Blockwork.Json

/-- How many lists and objects may stand inside one another where a document is used. -/
def maxDepth : Nat := 127

/-- The members of a record under the given names. An object may have others, which do not
count, but none of these twice; a list may leave out members at its end. -/
def record? (names : List String) : Json → Option (List (Option Json))
  | .object members =>
    if names.all fun name => (members.filter fun member => member.1 = name).length ≤ 1 then
      some (names.map fun name => (members.find? fun member => member.1 = name).map (·.2))
    else none
  | .array items =>
    if items.length ≤ names.length then
      some (items.map some ++ List.replicate (names.length - items.length) none)
    else none
  | _ => none

/-- The text of a string. -/
def text? : Json → Option String
  | .string s => some s
  | _ => none

/-- The truth value of a document. -/
def bool? : Json → Option Bool
  | .bool b => some b
  | _ => none

/-- The number that a numeral within the finite range is read as. -/
def real? : Json → Option Binary64
  | .number n => n.toBinary64?
  | _ => none

/-- A natural number of at most sixteen bits, spelled without sign, point or exponent. -/
def word16? : Json → Option Nat
  | .number n => n.toNat?.filter (· < 2 ^ 16)
  | _ => none

/-- The items of a list. -/
def items? : Json → Option (List Json)
  | .array items => some items
  | _ => none

/-- The members of an object. -/
def members? : Json → Option (List (String × Json))
  | .object members => some members
  | _ => none

/-- A member that has to be there. -/
def required {α : Type} (read : Json → Option α) (member : Option Json) : Option α :=
  member.bind read

/-- A member with a value to take when it is not there. -/
def withDefault {α : Type} (read : Json → Option α) (default : α) : Option Json → Option α
  | none => some default
  | some j => read j

end Blockwork.Json
