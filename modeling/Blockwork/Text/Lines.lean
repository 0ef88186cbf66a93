import Blockwork.Text.Blank

/-!
# Lines, pieces and indentation

`lines` cuts a text after each newline, so that the pieces concatenate to the text
(`flatten_lines`). `cut` cuts at every occurrence of a separator and drops it.
`indent` puts an indentation in front of each line that is not blank.
-/

namespace Blockwork.Text

/-- The lines of a text, each with the newline that ends it. -/
def lines : List Char → List (List Char)
  | [] => []
  | c :: rest =>
    if c = '\n' then [c] :: lines rest
    else
      -- The character starts the first line of the rest, or a last line without a newline.
      match lines rest with
      | [] => [[c]]
      | first :: others => (c :: first) :: others

/-- The pieces of a text between the occurrences of `sep`; never an empty list. -/
def cut (sep : Char) : List Char → List (List Char)
  | [] => [[]]
  | c :: rest =>
    if c = sep then [] :: cut sep rest
    else
      match cut sep rest with
      | [] => [[c]]
      | first :: others => (c :: first) :: others

/-- Puts a separator between neighbouring texts. -/
def joinWith (sep : String) : List String → String
  | [] => ""
  | [s] => s
  | s :: rest => s ++ sep ++ joinWith sep rest

/-- Indents one line, unless it is blank. -/
def indentLine (indentation line : List Char) : List Char :=
  if line.all isBlank then line else indentation ++ line

/-- Indents every line of a text that is not blank. -/
def indent (indentation code : String) : String :=
  String.ofList ((lines code.toList).flatMap (indentLine indentation.toList))

/-! ### Cutting loses nothing -/

theorem flatten_lines (cs : List Char) : (lines cs).flatten = cs := by
  induction cs with
  | nil => rfl
  | cons c rest ih =>
    rw [lines]
    split
    · simp [ih]
    · split
      · rename_i h; simp [h] at ih; simp [← ih]
      · rename_i h; simp [h] at ih; simp [ih]

theorem cut_ne_nil (sep : Char) (cs : List Char) : cut sep cs ≠ [] := by
  cases cs with
  | nil => simp [cut]
  | cons c rest =>
    rw [cut]
    split
    · simp
    · split <;> simp

@[simp] theorem toList_indent (indentation code : String) :
    (indent indentation code).toList =
      (lines code.toList).flatMap (indentLine indentation.toList) := by
  simp [indent]

end Blockwork.Text
