import Blockwork.Decimal.Scaled
import Blockwork.Decimal.Text

/-!
# JSON documents

`Json` is the syntax tree of a JSON text. Numbers are kept as they are spelled (`Numeral`), so
that a number too large for double precision is still a document, and members of an object
keep their order and their repetitions. A string literal whose escapes pair up wrongly denotes
no text; such a string, or an object with such a key, is the document `illFormed`.
-/

namespace Blockwork

/-- A JSON number as it is spelled: its digits in front of the point and behind it, and the
exponent, if one is written. -/
structure Numeral where
  negative : Bool
  whole : List Char
  fraction : List Char := []
  exponent : Option Int := none
deriving DecidableEq, Repr

namespace Numeral

/-- Goes on from a number with further digits, as long as 64 bits hold what they write, and gives
the digits that are left. -/
def takeDigits (n : Nat) : List Char → Nat × List Char
  | [] => (n, [])
  | c :: rest =>
    let longer := 10 * n + (c.toNat - 0x30)
    if longer < 2 ^ 64 then takeDigits longer rest else (n, c :: rest)

/-- The number that a numeral is read as, unless that is beyond the finite range. The number is
scaled from as many digits as 64 bits hold. Of the digits left, those in front of the point count
as zeros and those behind it do not count. -/
def toBinary64? (n : Numeral) : Option Binary64 :=
  let (head, left) := takeDigits 0 n.whole
  let (digits, dropped) := takeDigits head n.fraction
  let places : Int := n.fraction.length - dropped.length
  Binary64.scaled? n.negative digits (n.exponent.getD 0 + left.length - places)

/-- The natural number, when the numeral is spelled as one: no sign, point or exponent. -/
def toNat? (n : Numeral) : Option Nat :=
  if !n.negative && n.fraction.isEmpty && n.exponent.isNone then some (digitsValue n.whole)
  else none

/-- The numeral of a natural number. -/
def ofNat (n : Nat) : Numeral :=
  { negative := false, whole := digitsOf n }

/-- The lowest and the highest exponent of the leading digit that is written without an
exponent part. -/
def plainExponents : Int × Int := (-5, 15)

/-- The numeral of a finite number: the fewest digits to which it is the nearest number, a tie
going to the even one. A whole number keeps a zero behind its point, and very small and very large
numbers have one digit in front of it. -/
def ofBinary64 (x : Binary64) : Numeral :=
  let d := x.shortest .toEven
  let ds := digitsOf d.digits
  let leading : Int := (ds.length : Int) - 1 + d.exponent
  if x.isZero || (plainExponents.1 ≤ leading && leading ≤ plainExponents.2) then
    let (whole, fraction) := d.positional
    { negative := x.negative, whole, fraction := if fraction = [] then ['0'] else fraction }
  else
    { negative := x.negative, whole := ds.take 1, fraction := ds.drop 1,
      exponent := some leading }

end Numeral

/-- A JSON document. -/
inductive Json where
  | null
  | bool (value : Bool)
  | number (value : Numeral)
  | string (value : String)
  | illFormed
  | array (items : List Json)
  | object (members : List (String × Json))
deriving Inhabited

namespace Json

/-- The document of a natural number. -/
def natural (n : Nat) : Json := .number (.ofNat n)

/-- The document of a number; numbers that are not finite have none and become `null`. -/
def real (x : Binary64) : Json :=
  if x.isFinite then .number (.ofBinary64 x) else .null

/-- The document of a list of texts. -/
def strings (texts : List String) : Json := .array (texts.map .string)

end Json

end Blockwork
