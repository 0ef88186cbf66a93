import Blockwork.Text.Lines

/-!
# Names of files

What a file system takes for a file's name: at most 255 bytes, none of them zero. A path names
a file by its last segment; a path that ends in a step to a directory names none.
-/

namespace Blockwork.FileName

/-- How many bytes a name may have. -/
def maxSize : Nat := 255

/-- Whether a file can have a name. -/
def isPossible (name : String) : Bool :=
  name.utf8ByteSize ≤ maxSize && !name.toList.contains '\x00'

/-- The segments of a path. -/
def segments (path : String) : List String :=
  (Text.cut '/' path.toList).map String.ofList

/-- A segment that stays in a directory. -/
def isStay (segment : String) : Bool :=
  segment = "" || segment = "."

/-- Whether a path can lead to a file: its segments are possible, and the last one is a name. -/
def isFilePath (path : String) : Bool :=
  (segments path).all isPossible &&
    match (segments path).getLast? with
    | some last => !isStay last && last ≠ ".."
    | none => false

/-- Whether a path stays in the directory in which it starts. -/
def isStayPath (path : String) : Bool :=
  (segments path).all isStay

end Blockwork.FileName
