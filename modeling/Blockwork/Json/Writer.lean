import Blockwork.Json.Basic
import Blockwork.Text.Letter

/-!
# Writing JSON

`compact` writes a document without blanks; `pretty` writes each item and member on a line of
its own, indented by two blanks a level, with `[]` and `{}` for empty ones. Both write strings
alike: the quote, the backslash and control characters are escaped, all else stands raw.
-/

namespace Blockwork.Json

/-- How a character stands inside a string. -/
def escape (c : Char) : List Char :=
  if c = '"' then ['\\', '"']
  else if c = '\\' then ['\\', '\\']
  else if c.toNat = 8 then ['\\', 'b']
  else if c.toNat = 12 then ['\\', 'f']
  else if c = '\n' then ['\\', 'n']
  else if c = '\r' then ['\\', 'r']
  else if c = '\t' then ['\\', 't']
  else if c.toNat < 0x20 then
    ['\\', 'u', '0', '0', Text.hexDigit (c.toNat / 16), Text.hexDigit (c.toNat % 16)]
  else [c]

/-- A string with its quotes. -/
def writeString (s : String) : List Char :=
  '"' :: (s.toList.flatMap escape ++ ['"'])

/-- A number as it is spelled; a written exponent always has its sign. -/
def writeNumeral (n : Numeral) : List Char :=
  (if n.negative then ['-'] else []) ++ n.whole ++
  (if n.fraction = [] then [] else '.' :: n.fraction) ++
  match n.exponent with
  | none => []
  | some e => 'e' :: (if e < 0 then '-' else '+') :: digitsOf e.natAbs

/-- A document without items: everything but lists and objects that hold something. -/
def writeScalar : Json → List Char
  | .null => "null".toList
  | .bool true => "true".toList
  | .bool false => "false".toList
  | .number n => writeNumeral n
  | .string s => writeString s
  | .illFormed => "\"\\ud800\"".toList
  | .array _ => "[]".toList
  | .object _ => "\x7b\x7d".toList

mutual

/-- A document without blanks. -/
def compactChars : Json → List Char
  | .array items => '[' :: (compactItems items ++ [']'])
  | .object members => '{' :: (compactMembers members ++ ['}'])
  | scalar => writeScalar scalar

/-- The items of a list, separated by commas. -/
def compactItems : List Json → List Char
  | [] => []
  | [item] => compactChars item
  | item :: rest => compactChars item ++ ',' :: compactItems rest

/-- The members of an object, separated by commas. -/
def compactMembers : List (String × Json) → List Char
  | [] => []
  | [(key, value)] => writeString key ++ ':' :: compactChars value
  | (key, value) :: rest =>
    writeString key ++ ':' :: (compactChars value ++ ',' :: compactMembers rest)

end

/-- A document without blanks. -/
def compact (j : Json) : String :=
  String.ofList (compactChars j)

/-- The start of a line at this depth. -/
def newLine (depth : Nat) : List Char :=
  '\n' :: List.replicate (2 * depth) ' '

mutual

/-- A document with one item or member a line, at this depth. -/
def prettyChars (depth : Nat) : Json → List Char
  | .array (item :: rest) =>
    '[' :: (prettyItems (depth + 1) (item :: rest) ++ newLine depth ++ [']'])
  | .object (member :: rest) =>
    '{' :: (prettyMembers (depth + 1) (member :: rest) ++ newLine depth ++ ['}'])
  | scalar => writeScalar scalar

/-- The items of a list, each on its own line. -/
def prettyItems (depth : Nat) : List Json → List Char
  | [] => []
  | [item] => newLine depth ++ prettyChars depth item
  | item :: rest => newLine depth ++ prettyChars depth item ++ ',' :: prettyItems depth rest

/-- The members of an object, each on its own line. -/
def prettyMembers (depth : Nat) : List (String × Json) → List Char
  | [] => []
  | [(key, value)] => newLine depth ++ writeString key ++ ": ".toList ++ prettyChars depth value
  | (key, value) :: rest =>
    newLine depth ++ writeString key ++ ": ".toList ++ prettyChars depth value ++
      ',' :: prettyMembers depth rest

end

/-- A document with one item or member a line. -/
def pretty (j : Json) : String :=
  String.ofList (prettyChars 0 j)

end Blockwork.Json
