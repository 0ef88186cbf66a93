import Blockwork.Decimal.Nearest
import Blockwork.Decimal.Shortest
import Blockwork.Text.Letter

/-!
# Numbers as text

`ofText?` reads a decimal text, or one of the names of infinity and "not a number", as the
nearest number. `display` writes the fewest digits that read back, always positionally, and
`numberText` writes whole numbers of up to fifteen digits as integers, so that minus zero
loses its sign.
-/

namespace Blockwork

/-- The number that a list of decimal digits writes. -/
def digitsValue (cs : List Char) : Nat :=
  cs.foldl (fun n c => 10 * n + (c.toNat - 0x30)) 0

/-- The decimal digits of a natural number. -/
def digitsOf (n : Nat) : List Char :=
  Nat.toDigits 10 n

/-- The positional notation of `digits * 10 ^ exponent`: the part in front of the point and
the part behind it. -/
def Decimal.positional (d : Decimal) : List Char × List Char :=
  let ds := digitsOf d.digits
  if 0 ≤ d.exponent then (ds ++ List.replicate d.exponent.toNat '0', [])
  else
    let places := (-d.exponent).toNat
    if places < ds.length then (ds.take (ds.length - places), ds.drop (ds.length - places))
    else (['0'], List.replicate (places - ds.length) '0' ++ ds)

namespace Binary64

/-- Splits a sign off; a text without one is not negative. -/
def splitSign : List Char → Bool × List Char
  | '-' :: rest => (true, rest)
  | '+' :: rest => (false, rest)
  | cs => (false, cs)

/-- The exponent that stands behind the digits, 0 when nothing does. -/
def readExponent? : List Char → Option Int
  | [] => some 0
  | e :: rest =>
    if e = 'e' ∨ e = 'E' then
      let (negative, ds) := splitSign rest
      if ds ≠ [] ∧ ds.all Text.isDigit then
        some (if negative then -(digitsValue ds : Int) else digitsValue ds)
      else none
    else none

/-- Reads an unsigned decimal: digits with at most one point among or around them, and an
exponent. -/
def readDecimal? (cs : List Char) : Option Decimal :=
  let whole := cs.takeWhile Text.isDigit
  let rest := cs.dropWhile Text.isDigit
  let (fraction, tail) :=
    match rest with
    | '.' :: behind => (behind.takeWhile Text.isDigit, behind.dropWhile Text.isDigit)
    | _ => ([], rest)
  if whole = [] ∧ fraction = [] then none
  else
    (readExponent? tail).map fun e =>
      ⟨digitsValue (whole ++ fraction), e - fraction.length⟩

/-- Reads a number: a decimal, or a name of infinity or of "not a number" in any letter case. -/
def ofText? (s : String) : Option Binary64 :=
  let (negative, body) := splitSign s.toList
  let name := body.map Char.toLower
  if name = "inf".toList ∨ name = "infinity".toList then some (infinity negative)
  else if name = "nan".toList then some (nan negative)
  else (readDecimal? body).map fun d => ofDecimal negative d.digits d.exponent

/-- The fewest digits that read back, in positional notation; a tie goes upward. -/
def display (x : Binary64) : String :=
  if x.isNaN then "NaN"
  else
    let sign := if x.negative then ['-'] else []
    if x.isFinite then
      let (whole, fraction) := (x.shortest .upward).positional
      String.ofList (sign ++ whole ++ (if fraction = [] then [] else '.' :: fraction))
    else String.ofList (sign ++ "inf".toList)

/-- A number as source text: integers below 10¹⁵ without a sign of zero, all others as
displayed. -/
def numberText (x : Binary64) : String :=
  match x.toInt? with
  | some n => if n.natAbs < 10 ^ 15 then toString n else x.display
  | none => x.display

end Binary64

end Blockwork
