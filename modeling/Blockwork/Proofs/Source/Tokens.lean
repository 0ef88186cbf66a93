import Blockwork.Text.Letter

/-!
# Go tokens

The lexical rules of Go as a machine. Its state, a `Lexer`, says which token is being read and
whether the end of the line would end a statement; `step` reads one character and gives the
tokens that are complete with it. `tokens` runs the machine over a text. Comments and blanks
leave no token, and the end of a line leaves one where the language puts a semicolon.

The language fixes its letters and digits inside ASCII and takes those beyond from Unicode. An
`Alphabet` names the ones beyond, so that what holds for every alphabet holds for every version
of Unicode.
-/

namespace Blockwork.Source

/-- The letters and digits beyond ASCII. -/
structure Alphabet where
  letter : Char → Bool
  digit : Char → Bool

namespace Alphabet

/-- What a word may start with. -/
def isLetter (a : Alphabet) (c : Char) : Bool :=
  if c.toNat < 0x80 then c.isAlpha || c == '_' else a.letter c

/-- What a word may go on with. -/
def isWordPart (a : Alphabet) (c : Char) : Bool :=
  a.isLetter c || if c.toNat < 0x80 then Text.isDigit c else a.digit c

end Alphabet

/-! ### Tokens -/

/-- A token of the language. -/
inductive Token where
  /-- A name or a keyword. -/
  | word (text : String)
  | number (text : String)
  /-- An operator or a punctuation mark. -/
  | operator (text : String)
  /-- A literal between delimiters, as it is written between them. An interpreted string stands
  between double quotes, a rune between single quotes and a raw string between back quotes. -/
  | literal (delimiter : Char) (text : String) (closed : Bool)
  /-- The end of a line that ends a statement. -/
  | lineEnd
  /-- A character that starts no token. -/
  | illegal (c : Char)
deriving DecidableEq, Repr

/-- The keywords that do not end a statement. -/
def openKeywords : List String :=
  ["case", "chan", "const", "default", "defer", "else", "for", "func", "go", "goto", "if",
    "import", "interface", "map", "package", "range", "select", "struct", "switch", "type", "var"]

/-- The operators and punctuation marks of the language. -/
def operators : List String :=
  ["+", "-", "*", "/", "%", "&", "|", "^", "<<", ">>", "&^",
    "+=", "-=", "*=", "/=", "%=", "&=", "|=", "^=", "<<=", ">>=", "&^=",
    "&&", "||", "<-", "++", "--", "==", "<", ">", "=", "!", "~",
    "!=", "<=", ">=", ":=", "...", "(", ")", "[", "]", "\x7b", "\x7d", ",", ";", ".", ":"]

namespace Token

/-- Whether the end of the line right behind the token ends a statement. -/
def endsStatement : Token → Bool
  | word text => !openKeywords.contains text
  | operator text => ["++", "--", ")", "]", "\x7d"].contains text
  | number _ | literal .. => true
  | lineEnd | illegal _ => false

/-- The token without what an interpreted string says. -/
def withoutValue : Token → Token
  | literal delimiter text closed =>
    literal delimiter (if delimiter = '"' then "" else text) closed
  | other => other

end Token

/-! ### Reading -/

/-- How far a number has been read. -/
inductive Numeral where
  /-- A zero in front, behind which a base can be named. -/
  | zero
  | whole (hex : Bool)
  | fraction (hex : Bool)
  /-- Behind the letter of the exponent. -/
  | exponent
  /-- Behind the sign of the exponent. -/
  | power
  /-- Behind the mark of an imaginary number. -/
  | imaginary
deriving DecidableEq, Repr

namespace Numeral

/-- Whether the character is a digit of the base, or an underscore between digits. -/
def isPlace (hex : Bool) (c : Char) : Bool :=
  c == '_' || if hex then (Text.hexValue? c).isSome else Text.isDigit c

/-- Whether the number goes on with the character, and how far it has been read then. Digits
that the base does not have are read as well; they make the number wrong, but not shorter. -/
def next? (numeral : Numeral) (c : Char) : Option Numeral :=
  match numeral with
  | zero =>
    if c = 'x' ∨ c = 'X' then some (whole true)
    else if c = 'o' ∨ c = 'O' ∨ c = 'b' ∨ c = 'B' then some (whole false)
    else behind? (whole false) false c
  | whole hex => behind? (whole hex) hex c
  | fraction hex => if c = '.' then none else behind? (fraction hex) hex c
  | exponent =>
    if c = '+' ∨ c = '-' ∨ isPlace false c then some power
    else if c = 'i' then some imaginary else none
  | power =>
    if isPlace false c then some power else if c = 'i' then some imaginary else none
  | imaginary => none
where
  /-- What can stand behind the digits of the base. -/
  behind? (same : Numeral) (hex : Bool) (c : Char) : Option Numeral :=
    if isPlace hex c then some same
    else if c = '.' then some (fraction hex)
    else if c = 'e' ∨ c = 'E' ∨ c = 'p' ∨ c = 'P' then some exponent
    else if c = 'i' then some imaginary else none

end Numeral

/-- The token that is being read. What it has of characters is in reverse, except for the marks
of operators. -/
inductive Reading where
  | between
  | word (letters : List Char)
  | number (numeral : Numeral) (digits : List Char)
  /-- Marks that are an operator, or two dots, which may become three. -/
  | operator (marks : List Char)
  /-- A string or a rune, with whether its last character is a backslash that escapes. -/
  | quoted (delimiter : Char) (escaped : Bool) (inside : List Char)
  | raw (inside : List Char)
  | lineComment
  /-- With whether the last character is a star, and whether a line has ended inside. -/
  | blockComment (star broke : Bool)
deriving DecidableEq, Repr

/-- What has been read as one token or two, when nothing more belongs to it. -/
def Reading.tokens : Reading → List Token
  | between | lineComment | blockComment .. => []
  | word letters => [.word (String.ofList letters.reverse)]
  | number _ digits => [.number (String.ofList digits.reverse)]
  | operator marks =>
    if marks = ['.', '.'] then [.operator ".", .operator "."]
    else [.operator (String.ofList marks)]
  | quoted delimiter _ inside => [.literal delimiter (String.ofList inside.reverse) false]
  | raw inside => [.literal '\x60' (String.ofList inside.reverse) false]

/-- The state of the machine. -/
structure Lexer where
  reading : Reading := .between
  /-- Whether the end of the line would end a statement, by the tokens complete so far. -/
  ends : Bool := false
deriving DecidableEq, Repr

namespace Lexer

open Reading

/-- Whether the end of the line would end a statement behind these tokens as well. -/
def endsBehind (ends : Bool) (tokens : List Token) : Bool :=
  tokens.getLast?.elim ends Token.endsStatement

/-- The line end, where it ends a statement. -/
def lineEnd (ends : Bool) : List Token :=
  if ends then [.lineEnd] else []

/-- Reads a character that starts something new. -/
def start (a : Alphabet) (ends : Bool) (c : Char) : Lexer × List Token :=
  if c = '\n' then (⟨between, false⟩, lineEnd ends)
  else if c = ' ' ∨ c = '\t' ∨ c = '\r' then (⟨between, ends⟩, [])
  else if a.isLetter c then (⟨word [c], ends⟩, [])
  else if Text.isDigit c then
    (⟨number (if c = '0' then .zero else .whole false) [c], ends⟩, [])
  else if c = '"' ∨ c = '\x27' then (⟨quoted c false [], ends⟩, [])
  else if c = '\x60' then (⟨raw [], ends⟩, [])
  else if String.singleton c ∈ operators then (⟨operator [c], ends⟩, [])
  else (⟨between, ends⟩, [.illegal c])

/-- Reads a character that does not belong to the token that is being read. -/
def leave (a : Alphabet) (s : Lexer) (c : Char) : Lexer × List Token :=
  let left := s.reading.tokens
  let next := start a (endsBehind s.ends left) c
  (next.1, left ++ next.2)

/-- Reads a character behind the marks of an operator. -/
def stepOperator (a : Alphabet) (ends : Bool) (marks : List Char) (c : Char) :
    Lexer × List Token :=
  if marks = ['/'] ∧ c = '/' then (⟨lineComment, ends⟩, [])
  else if marks = ['/'] ∧ c = '*' then (⟨blockComment false false, ends⟩, [])
  else if marks = ['.'] ∧ Text.isDigit c then (⟨number (.fraction false) [c, '.'], ends⟩, [])
  else if marks = ['.', '.'] ∧ Text.isDigit c then
    (⟨number (.fraction false) [c, '.'], false⟩, [.operator "."])
  else if marks ++ [c] = ['.', '.'] ∨ String.ofList (marks ++ [c]) ∈ operators then
    (⟨operator (marks ++ [c]), ends⟩, [])
  else leave a ⟨operator marks, ends⟩ c

/-- Reads a character inside a string or a rune. An escape only matters where it stands in
front of a delimiter or a backslash; a line that ends leaves the literal open. -/
def stepQuoted (a : Alphabet) (ends : Bool) (delimiter : Char) (escaped : Bool)
    (inside : List Char) (c : Char) : Lexer × List Token :=
  if c = '\n' then leave a ⟨quoted delimiter escaped inside, ends⟩ c
  else if escaped then (⟨quoted delimiter false (c :: inside), ends⟩, [])
  else if c = delimiter then
    (⟨between, true⟩, [.literal delimiter (String.ofList inside.reverse) true])
  else (⟨quoted delimiter (c = '\\') (c :: inside), ends⟩, [])

/-- Reads one character, and gives the tokens that are complete with it. -/
def step (a : Alphabet) (s : Lexer) (c : Char) : Lexer × List Token :=
  match s.reading with
  | between => start a s.ends c
  | word letters =>
    if a.isWordPart c then (⟨word (c :: letters), s.ends⟩, []) else leave a s c
  | number numeral digits =>
    match numeral.next? c with
    | some next => (⟨number next (c :: digits), s.ends⟩, [])
    | none => leave a s c
  | operator marks => stepOperator a s.ends marks c
  | quoted delimiter escaped inside => stepQuoted a s.ends delimiter escaped inside c
  | raw inside =>
    if c = '\x60' then
      (⟨between, true⟩, [.literal '\x60' (String.ofList inside.reverse) true])
    -- The value of a raw string has no carriage returns.
    else (⟨raw (if c = '\r' then inside else c :: inside), s.ends⟩, [])
  | lineComment => if c = '\n' then leave a s c else (s, [])
  | blockComment star broke =>
    if star ∧ c = '/' then
      (⟨between, s.ends && !broke⟩, if broke then lineEnd s.ends else [])
    else (⟨blockComment (c = '*') (broke || c = '\n'), s.ends⟩, [])

/-- The tokens of the rest of a text. The end of the text is the end of a line. -/
def run (a : Alphabet) (s : Lexer) : List Char → List Token
  | [] =>
    let left := s.reading.tokens
    left ++ lineEnd (endsBehind s.ends left)
  | c :: rest => (s.step a c).2 ++ run a (s.step a c).1 rest

end Lexer

/-- The tokens of a text. -/
def tokens (a : Alphabet) (code : String) : List Token :=
  Lexer.run a {} code.toList

end Blockwork.Source
