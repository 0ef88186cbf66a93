import Blockwork.Json.Basic
import Blockwork.Text.Letter

/-!
# Reading JSON

`Json.parse?` reads one document, with blanks around it, by the grammar of RFC 8259 and
nothing beyond it: no comments, no trailing commas, no leading zeros, no raw control
characters. A string or a key may be ill-formed, a number may be of any size and lists may
nest to any depth: whether such things matter is for whoever uses the document to say.
-/

namespace Blockwork.Json

/-- A blank between tokens. -/
def isSpace (c : Char) : Bool :=
  c = ' ' || c = '\t' || c = '\n' || c = '\r'

/-- Passes over blanks. -/
def skipSpace (cs : List Char) : List Char :=
  cs.dropWhile isSpace

/-- What a backslash followed by this character stands for. -/
def escapedBy? (c : Char) : Option Char :=
  if c = '"' ∨ c = '\\' ∨ c = '/' then some c
  else if c = 'b' then some (Char.ofNat 8)
  else if c = 'f' then some (Char.ofNat 12)
  else if c = 'n' then some '\n'
  else if c = 'r' then some '\r'
  else if c = 't' then some '\t'
  else none

/-- Reads the inside of a string up to its closing quote: the code points written, where an
escape by number may give half of a surrogate pair, and the text behind the quote. -/
def readPoints? : List Char → Option (List Nat × List Char)
  | [] => none
  | '"' :: rest => some ([], rest)
  | '\\' :: 'u' :: a :: b :: c :: d :: rest => do
    let a ← Text.hexValue? a
    let b ← Text.hexValue? b
    let c ← Text.hexValue? c
    let d ← Text.hexValue? d
    -- A code unit, which may be half of a surrogate pair.
    let (points, tail) ← readPoints? rest
    some ((((a * 16 + b) * 16 + c) * 16 + d) :: points, tail)
  | '\\' :: e :: rest => do
    let c ← escapedBy? e
    let (points, tail) ← readPoints? rest
    some (c.toNat :: points, tail)
  | c :: rest =>
    if c.toNat < 0x20 then none
    else do
      let (points, tail) ← readPoints? rest
      some (c.toNat :: points, tail)

/-- First half of a surrogate pair. -/
def isHighSurrogate (n : Nat) : Bool := 0xD800 ≤ n && n < 0xDC00

/-- Second half of a surrogate pair. -/
def isLowSurrogate (n : Nat) : Bool := 0xDC00 ≤ n && n < 0xE000

/-- Joins the surrogate pairs; halves that are not paired denote no text. -/
def joinPairs? : List Nat → Option (List Char)
  | [] => some []
  | [n] => if isHighSurrogate n || isLowSurrogate n then none else some [Char.ofNat n]
  | n :: m :: rest =>
    if isHighSurrogate n then
      if isLowSurrogate m then
        (joinPairs? rest).map
          (Char.ofNat (0x10000 + (n - 0xD800) * 0x400 + (m - 0xDC00)) :: ·)
      else none
    else if isLowSurrogate n then none
    else (joinPairs? (m :: rest)).map (Char.ofNat n :: ·)

/-- Reads a string behind its opening quote; `none` inside for one that denotes no text. -/
def readString? (cs : List Char) : Option (Option String × List Char) :=
  (readPoints? cs).map fun (points, rest) => ((joinPairs? points).map String.ofList, rest)

/-- The object with these members; it denotes nothing when one of its keys denotes no text. -/
def ofMembers (members : List (Option String × Json)) : Json :=
  if members.all fun member => member.1.isSome then
    .object (members.map fun member => (member.1.getD "", member.2))
  else .illFormed

/-- Reads an exponent part, if there is one. -/
def readExponent? : List Char → Option (Option Int × List Char)
  | [] => some (none, [])
  | e :: rest =>
    if e = 'e' ∨ e = 'E' then
      let (negative, body) := Binary64.splitSign rest
      let ds := body.takeWhile Text.isDigit
      if ds = [] then none
      else
        let size : Int := digitsValue ds
        some (some (if negative then -size else size), body.dropWhile Text.isDigit)
    else some (none, e :: rest)

/-- Reads a fraction part, if there is one. -/
def readFraction? : List Char → Option (List Char × List Char)
  | '.' :: rest =>
    let ds := rest.takeWhile Text.isDigit
    if ds = [] then none else some (ds, rest.dropWhile Text.isDigit)
  | cs => some ([], cs)

/-- Reads the digits in front of the point: a lone zero, or digits that start with no zero. -/
def readWhole? : List Char → Option (List Char × List Char)
  | '0' :: rest => some (['0'], rest)
  | cs =>
    let ds := cs.takeWhile Text.isDigit
    if ds = [] then none else some (ds, cs.dropWhile Text.isDigit)

/-- Reads a number. -/
def readNumeral? (cs : List Char) : Option (Numeral × List Char) := do
  let (negative, cs) :=
    match cs with
    | '-' :: rest => (true, rest)
    | _ => (false, cs)
  let (whole, cs) ← readWhole? cs
  let (fraction, cs) ← readFraction? cs
  let (exponent, cs) ← readExponent? cs
  some ({ negative, whole, fraction, exponent }, cs)

mutual

/-- Reads a document; `fuel` bounds the number of nested calls. -/
def readValue? : Nat → List Char → Option (Json × List Char)
  | 0, _ => none
  | fuel + 1, cs =>
    match skipSpace cs with
    | '"' :: rest =>
      (readString? rest).map fun (s, rest) => (s.elim .illFormed .string, rest)
    | '[' :: rest =>
      match skipSpace rest with
      | ']' :: rest => some (.array [], rest)
      | rest => (readItems? fuel rest).map fun (items, rest) => (.array items, rest)
    | '{' :: rest =>
      match skipSpace rest with
      | '}' :: rest => some (.object [], rest)
      | rest => (readMembers? fuel rest).map fun (members, rest) => (ofMembers members, rest)
    | 'n' :: 'u' :: 'l' :: 'l' :: rest => some (.null, rest)
    | 't' :: 'r' :: 'u' :: 'e' :: rest => some (.bool true, rest)
    | 'f' :: 'a' :: 'l' :: 's' :: 'e' :: rest => some (.bool false, rest)
    | cs => (readNumeral? cs).map fun (n, rest) => (.number n, rest)

/-- Reads the items of a list that is not empty, and its closing bracket. -/
def readItems? : Nat → List Char → Option (List Json × List Char)
  | 0, _ => none
  | fuel + 1, cs =>
    match readValue? fuel cs with
    | none => none
    | some (item, rest) =>
      match skipSpace rest with
      | ',' :: rest => (readItems? fuel rest).map fun (items, rest) => (item :: items, rest)
      | ']' :: rest => some ([item], rest)
      | _ => none

/-- Reads the members of an object that is not empty, and its closing brace. -/
def readMembers? : Nat → List Char → Option (List (Option String × Json) × List Char)
  | 0, _ => none
  | fuel + 1, cs =>
    match skipSpace cs with
    | '"' :: rest =>
      match readString? rest with
      | some (key, rest) =>
        match skipSpace rest with
        | ':' :: rest =>
          match readValue? fuel rest with
          | none => none
          | some (value, rest) =>
            match skipSpace rest with
            | ',' :: rest =>
              (readMembers? fuel rest).map fun (members, rest) => ((key, value) :: members, rest)
            | '}' :: rest => some ([(key, value)], rest)
            | _ => none
        | _ => none
      | none => none
    | _ => none

end

/-- Reads one document with blanks around it. Each nested call consumes a character, so the
length of the text is fuel enough. -/
def parse? (text : String) : Option Json :=
  let cs := text.toList
  match readValue? (cs.length + 1) cs with
  | some (j, rest) => if skipSpace rest = [] then some j else none
  | none => none

end Blockwork.Json
