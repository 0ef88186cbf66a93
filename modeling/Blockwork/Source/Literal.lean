import Blockwork.Text.Blank
import Blockwork.Text.Letter

/-!
# String literals in Go source

`quote` writes a text as an interpreted string literal and `literalText?` reads a text back
from an interpreted literal, a raw literal between back quotes, or a value between single
quotes. `requote` turns a value between single quotes into an interpreted literal. `escape` says
how a character is written; `escapedBy?` knows the escapes of a single letter, and reading
leaves all others as they stand.
-/

namespace Blockwork.Source

/-- How a character stands inside an interpreted string literal. Control characters without
a letter of their own are written by their two-digit code. -/
def escape (c : Char) : List Char :=
  if c = '"' then ['\\', '"']
  else if c = '\\' then ['\\', '\\']
  else if c = '\n' then ['\\', 'n']
  else if c = '\r' then ['\\', 'r']
  else if c = '\t' then ['\\', 't']
  else if c.toNat < 0x20 || c.toNat = 0x7F then
    ['\\', 'x', Text.hexDigit (c.toNat / 16), Text.hexDigit (c.toNat % 16)]
  else [c]

/-- The interpreted string literal of a text, with its quotes. -/
def quoteChars (cs : List Char) : List Char :=
  '"' :: (cs.flatMap escape ++ ['"'])

/-- The interpreted string literal of a text, with its quotes. -/
def quote (s : String) : String :=
  String.ofList (quoteChars s.toList)

/-- What a backslash followed by this character stands for, when it is an escape. -/
def escapedBy? (c : Char) : Option Char :=
  if c = 'n' then some '\n'
  else if c = 'r' then some '\r'
  else if c = 't' then some '\t'
  else if c = '\\' then some '\\'
  else if c = '\x27' then some '\x27'
  else if c = '"' then some '"'
  else none

/-- Resolves the escapes of a literal's inside. A backslash that starts no escape stands for
itself, and so does the character after it. -/
def resolveEscapes : List Char → List Char
  | [] => []
  | [c] => [c]
  | c :: d :: rest =>
    if c = '\\' then
      match escapedBy? d with
      | some e => e :: resolveEscapes rest
      | none => c :: d :: resolveEscapes rest
    else c :: resolveEscapes (d :: rest)

/-- The inside of a text that starts and ends with the same delimiter. -/
def inside? (delimiter : Char) : List Char → Option (List Char)
  | [] => none
  | c :: rest =>
    if c = delimiter ∧ rest.getLast? = some delimiter then some rest.dropLast else none

/-- The text that a literal stands for, when the characters are delimited like one. -/
def literalChars? (cs : List Char) : Option (List Char) :=
  match inside? '"' cs with
  | some inside => some (resolveEscapes inside)
  | none =>
    match inside? '\x60' cs with
    | some inside => some inside
    | none => (inside? '\x27' cs).map resolveEscapes

/-- Reads the text of a literal, with blanks around it ignored. -/
def literalText? (s : String) : Option String :=
  (literalChars? (Text.trimWhere Text.isBlank s.toList)).map String.ofList

/-- Rewrites a value between single quotes as an interpreted literal; any other value stays
as it is. -/
def requote (value : String) : String :=
  match inside? '\x27' value.toList with
  | some inside => String.ofList (quoteChars (resolveEscapes inside))
  | none => value

@[simp] theorem toList_quote (s : String) : (quote s).toList = quoteChars s.toList := by
  simp [quote]

/-- The inside of a delimited text is found again. -/
theorem inside?_delimited (delimiter : Char) (inside : List Char) :
    inside? delimiter (delimiter :: (inside ++ [delimiter])) = some inside := by
  simp [inside?]

end Blockwork.Source
