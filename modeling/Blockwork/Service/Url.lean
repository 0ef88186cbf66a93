import Blockwork.Service.Form
import Blockwork.Text.Letter
import Blockwork.Text.Lines

/-!
# Addresses of services

`Url.parse?` reads an absolute address of the schemes `http` and `https` in the way of the URL
standard: blanks around it and line breaks in it do not count, back slashes count as slashes,
the host is followed by a path whose dot segments are resolved, and what a request cannot hold
is written by percent signs. `target` is what a request line asks for.
-/

namespace Blockwork.Service

/-- An absolute address: whether it is secure, host and port, path, and query. -/
structure Url where
  secure : Bool
  authority : String
  path : String
  query : Option String
deriving DecidableEq

namespace Url

/-- A control character or a blank, as they do not count around an address. -/
def isControlOrBlank (c : Char) : Bool :=
  c.toNat ≤ 0x20

/-- A character that does not count inside an address. -/
def isIgnored (c : Char) : Bool :=
  c == '\t' || c == '\n' || c == '\r'

/-- A slash of either kind. -/
def isSlash (c : Char) : Bool :=
  c == '/' || c == '\\'

/-- Whether a character must be written by percent signs, given the marks that must be. -/
def needsEncoding (marks : List Char) (c : Char) : Bool :=
  c.toNat ≤ 0x20 || 0x7F ≤ c.toNat || marks.contains c

/-- A text with some of its characters written by percent signs. -/
def percentEncode (marks cs : List Char) : List Char :=
  cs.flatMap fun c =>
    if needsEncoding marks c then
      (String.ofList [c]).toUTF8.toList.flatMap percentByte
    else [c]

/-- The marks that no path holds. -/
def pathMarks : List Char := ['"', '#', '<', '>', '?', '\x60', '{', '}', '^']

/-- The marks that no query holds. -/
def queryMarks : List Char := ['"', '#', '<', '>', '\x27']

/-- Whether a segment stands for the current level, in one of its spellings. -/
def isSingleDot (segment : List Char) : Bool :=
  let s := segment.map Char.toLower
  s == ".".toList || s == "%2e".toList

/-- Whether a segment stands for the level above, in one of its spellings. -/
def isDoubleDot (segment : List Char) : Bool :=
  let s := segment.map Char.toLower
  s == "..".toList || s == ".%2e".toList || s == "%2e.".toList || s == "%2e%2e".toList

/-- Resolves the dot segments of a path; `above` holds the levels so far, the last one first.
A dot segment at the end leaves an empty segment. -/
def resolve (above : List (List Char)) : List (List Char) → List (List Char)
  | [] => above.reverse
  | segment :: rest =>
    if isDoubleDot segment then
      resolve (if rest.isEmpty then [] :: above.drop 1 else above.drop 1) rest
    else if isSingleDot segment then
      resolve (if rest.isEmpty then [] :: above else above) rest
    else resolve (segment :: above) rest

/-- The path of an address, from what stands between the host and the query. -/
def pathOf (cs : List Char) : String :=
  let cs := cs.map fun c => if c = '\\' then '/' else c
  let segments := Text.cut '/' (if cs.head? = some '/' then cs.drop 1 else cs)
  let segments := resolve [] (segments.map (percentEncode pathMarks))
  "/" ++ Text.joinWith "/" (segments.map String.ofList)

/-- A character of a host that stands for itself. Other spellings of hosts are not read. -/
def isHostPart (c : Char) : Bool :=
  Text.isDigit c || ('a' ≤ c && c ≤ 'z') || c == '.' || c == '-' || c == '_' || c == ':' ||
  c == '[' || c == ']'

/-- Reads the rest of an address behind its scheme. -/
def ofRest? (secure : Bool) (cs : List Char) : Option Url :=
  -- Any number of slashes may stand in front of the host, even none.
  let cs := cs.dropWhile isSlash
  let ends (c : Char) : Bool := isSlash c || c == '?' || c == '#'
  let authority := (cs.takeWhile fun c => !ends c).map Char.toLower
  -- What follows a number sign is not sent.
  let rest := (cs.dropWhile fun c => !ends c).takeWhile (· ≠ '#')
  let path := rest.takeWhile (· ≠ '?')
  let query :=
    match rest.dropWhile (· ≠ '?') with
    | [] => none
    | _ :: query => some (String.ofList (percentEncode queryMarks query))
  if authority.isEmpty || authority.head? = some ':' || !authority.all isHostPart then none
  else some { secure, authority := String.ofList authority, path := pathOf path, query }

/-- Reads an absolute address. -/
def parse? (text : String) : Option Url :=
  let cs := (Text.trimWhere isControlOrBlank text.toList).filter fun c => !isIgnored c
  let scheme := (cs.takeWhile (· ≠ ':')).map Char.toLower
  let rest := cs.dropWhile (· ≠ ':')
  if rest.isEmpty then none
  else if scheme == "http".toList then ofRest? false (rest.drop 1)
  else if scheme == "https".toList then ofRest? true (rest.drop 1)
  else none

/-- Adds a named text to the query. -/
def withPair (u : Url) (name value : String) : Url :=
  let pair := formPair name value
  { u with query := some (match u.query with
      | none | some "" => pair
      | some query => s!"{query}&{pair}") }

/-- What a request line asks for: the path and the query. -/
def target (u : Url) : String :=
  match u.query with
  | none => u.path
  | some query => s!"{u.path}?{query}"

end Url

end Blockwork.Service
