import Blockwork.Text.Letter
import Blockwork.Collection.NameSet

/-!
# Qualifiers in source text

A *qualifier* is a name followed by a dot and another name, such as `http` in `http.Get`, that
is not itself behind a dot. The scanner reads Go source one character at a time. Its state,
a `Mode`, says what kind of token the last character belongs to; string and rune literals,
comments and numbers are passed over. `step` gives the next mode and the qualifier that the
character completes, if it completes one. Because the scanner is such a machine, scanning a
text is scanning its parts one after the other (`run_append`, `found_append`).
-/

namespace Blockwork.Source

/-- Where the scanner stands after the characters read so far. -/
inductive Mode where
  /-- Between tokens; the last character is neither a dot nor a slash. -/
  | gap
  /-- Behind a slash that may open a comment. -/
  | slash
  /-- Behind a dot, with the name in front of it when that name can be a qualifier. -/
  | dot (base : Option (List Char))
  /-- Inside a name, its letters so far in reverse; `base` when no dot stands before it. -/
  | name (letters : List Char) (base : Bool)
  /-- Inside a number, with whether its last character is a dot. -/
  | number (dotted : Bool)
  /-- Inside a string or rune literal that this delimiter closes. -/
  | quoted (delimiter : Char)
  /-- Behind a backslash in such a literal. -/
  | escaped (delimiter : Char)
  /-- Inside a raw string literal. -/
  | raw
  /-- Inside a comment that the line's end closes. -/
  | lineComment
  /-- Inside a block comment, with whether its last character is a star. -/
  | blockComment (star : Bool)
deriving DecidableEq, Repr

namespace Mode

/-- The mode after a character that starts a new token; `dotted` tells whether a dot stands
right before it. -/
def start (dotted : Bool) (c : Char) : Mode :=
  if c = '"' ∨ c = '\x27' then quoted c
  else if c = '\x60' then raw
  else if c = '/' then slash
  else if c = '.' then dot none
  else if Text.isDigit c then number false
  else if Text.isWordStart c then name [c] (!dotted)
  else gap

/-- The next mode, and the qualifier that the character completes. -/
def step (mode : Mode) (c : Char) : Mode × Option (List Char) :=
  match mode with
  | gap => (start false c, none)
  | slash =>
    if c = '/' then (lineComment, none)
    else if c = '*' then (blockComment false, none)
    else (start false c, none)
  | dot base => (start true c, if Text.isWordStart c then base else none)
  | name letters base =>
    if Text.isWordPart c then (name (c :: letters) base, none)
    else if c = '.' then (dot (if base then some letters.reverse else none), none)
    else (start false c, none)
  | number dotted =>
    if Text.isLetterOrNumber c then (number false, none)
    else if c = '.' then (number true, none)
    else (start dotted c, none)
  | quoted delimiter =>
    if c = delimiter ∨ c = '\n' then (gap, none)
    else if c = '\\' then (escaped delimiter, none)
    else (quoted delimiter, none)
  | escaped delimiter => (quoted delimiter, none)
  | raw => (if c = '\x60' then gap else raw, none)
  | lineComment => (if c = '\n' then gap else lineComment, none)
  | blockComment star =>
    (if star && c = '/' then gap else blockComment (c = '*'), none)

/-- The mode after a text. -/
def run (mode : Mode) (cs : List Char) : Mode :=
  cs.foldl (fun m c => (m.step c).1) mode

/-- The qualifiers that a text completes, in the order in which they stand. -/
def found : Mode → List Char → List (List Char)
  | _, [] => []
  | mode, c :: rest =>
    let next := mode.step c
    match next.2 with
    | some qualifier => qualifier :: found next.1 rest
    | none => found next.1 rest

end Mode

/-- The names used as qualifiers in a source text. -/
def qualifiers (source : String) : NameSet :=
  NameSet.ofList ((Mode.gap.found source.toList).map String.ofList)

/-! ### Scanning in parts -/

theorem Mode.run_append (mode : Mode) (xs ys : List Char) :
    mode.run (xs ++ ys) = (mode.run xs).run ys := by
  simp [Mode.run]

theorem Mode.found_append (mode : Mode) (xs ys : List Char) :
    mode.found (xs ++ ys) = mode.found xs ++ (mode.run xs).found ys := by
  induction xs generalizing mode with
  | nil => rfl
  | cons c rest ih =>
    have hrun : mode.run (c :: rest) = (mode.step c).1.run rest := rfl
    rw [List.cons_append, Mode.found, Mode.found, hrun]
    cases h : (mode.step c).2 <;> simp [ih]

end Blockwork.Source
