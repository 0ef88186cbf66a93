import Blockwork.Text.Lines
import Blockwork.Text.Letter

/-!
# Import paths

Which texts are import paths, and the name that a package is assumed to have. A package is
named by the last segment of its path; a segment that only gives a major version is passed
over, a leading `go-` is dropped, and the name ends in front of the first character that no
identifier holds.
-/

namespace Blockwork.ImportPath

/-- A character that no import path holds. -/
def isForbidden (c : Char) : Bool :=
  Text.isBlank c || c == ',' || c == '"' || c == '\x27' || c == '\x60' || c == '\\'

/-- Whether a text is an import path: not empty, without blanks, quotes, commas and
backslashes, and with no empty segment. -/
def isWellFormed (path : String) : Bool :=
  !path.toList.isEmpty && !path.toList.any isForbidden &&
    (Text.cut '/' path.toList).all fun segment => !segment.isEmpty

theorem isWellFormed_iff {path : String} :
    isWellFormed path = true ↔ path ≠ "" ∧ (∀ c ∈ path.toList, isForbidden c = false) ∧
      ∀ segment ∈ Text.cut '/' path.toList, segment ≠ [] := by
  simp [isWellFormed, and_assoc]

/-- Whether a segment is a major version: the letter v and digits. -/
def isVersion : List Char → Bool
  | 'v' :: digits => !digits.isEmpty && digits.all Text.isDigit
  | _ => false

/-- The segment that names the package: the last one, or the one before it when the last is a
major version. -/
def namingSegment (segments : List (List Char)) : List Char :=
  match segments.reverse with
  | [] => []
  | [last] => last
  | last :: previous :: _ => if isVersion last then previous else last

/-- A segment without a leading `go-`. -/
def dropToolPrefix : List Char → List Char
  | 'g' :: 'o' :: '-' :: rest => rest
  | segment => segment

/-- The part of a name that an identifier can hold; the whole name when that part is empty. -/
def wordPart (name : List Char) : List Char :=
  -- A name that starts with another character stays whole.
  match name.takeWhile Text.isWordPart with
  | [] => name
  | word => word

/-- A path without blanks and quotes around it and slashes behind it. -/
def bare (path : List Char) : List Char :=
  Text.dropEndWhile (· == '/') (Text.trimWhere (· == '"') (Text.trimWhere Text.isBlank path))

/-- The name that the package of an import path is assumed to have. -/
def guessedName (path : String) : String :=
  String.ofList (wordPart (dropToolPrefix (namingSegment (Text.cut '/' (bare path.toList)))))

end Blockwork.ImportPath
