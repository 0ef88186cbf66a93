/-!
# Form encoding

The `application/x-www-form-urlencoded` form of a text: letters, digits and four marks stand
for themselves, a blank becomes a plus, and every other byte of the UTF-8 form is written as a
percent sign and two upper-case hexadecimal digits.
-/

namespace Blockwork.Service

/-- The upper-case hexadecimal digit of a number below sixteen. -/
def upperHexDigit (n : Nat) : Char :=
  if n < 10 then Char.ofNat (0x30 + n) else Char.ofNat (0x41 + (n - 10))

/-- A byte as a percent sign and two digits. -/
def percentByte (b : UInt8) : List Char :=
  ['%', upperHexDigit (b.toNat / 16), upperHexDigit (b.toNat % 16)]

/-- A byte that stands for itself in a form. -/
def isFormSafe (b : UInt8) : Bool :=
  let n := b.toNat
  (0x30 ≤ n && n ≤ 0x39) || (0x41 ≤ n && n ≤ 0x5A) || (0x61 ≤ n && n ≤ 0x7A) ||
  n == 0x2A || n == 0x2D || n == 0x2E || n == 0x5F

/-- A byte in form encoding. -/
def formByte (b : UInt8) : List Char :=
  if b.toNat = 0x20 then ['+']
  else if isFormSafe b then [Char.ofNat b.toNat]
  else percentByte b

/-- A text in form encoding. -/
def formEncode (s : String) : String :=
  String.ofList (s.toUTF8.toList.flatMap formByte)

/-- A named text in form encoding. -/
def formPair (name value : String) : String :=
  s!"{formEncode name}={formEncode value}"

end Blockwork.Service
