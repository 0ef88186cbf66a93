import Blockwork.Proofs.Source.ReadBack

/-!
# Strings read by the language

What the language reads of an interpreted string literal. `readString?` reads one literal at the
front of a text: it stops at the first quote that is not escaped, and gives the bytes that the
literal says together with the text behind it. It knows no escapes but `\"`, `\\`, `\n`, `\r`,
`\t` and `\x` with two digits, and no literal that goes over the end of its line.

* **one character** — `readInside_escape_append`: what `escape` writes is read as the character,
  whatever follows;
* **the literal** — `readString?_quote_append`: the literal of a text is read to its end and not
  beyond, and says the text;
* **all literals** — `quote_read_exactly`: so different texts have literals of which none starts
  another.
-/

namespace Blockwork.Source

variable {c : Char} {cs ds rest : List Char}

/-! ### Bytes -/

/-- The bytes of a text. -/
def bytesOf (cs : List Char) : List UInt8 :=
  cs.flatMap String.utf8EncodeChar

@[simp] theorem bytesOf_cons (c : Char) (cs : List Char) :
    bytesOf (c :: cs) = String.utf8EncodeChar c ++ bytesOf cs :=
  List.flatMap_cons

@[simp] theorem bytesOf_append (cs ds : List Char) :
    bytesOf (cs ++ ds) = bytesOf cs ++ bytesOf ds :=
  List.flatMap_append

/-- Texts are told apart by their bytes. -/
theorem bytesOf_inj {s t : String} : bytesOf s.toList = bytesOf t.toList ↔ s = t := by
  rw [← String.toByteArray_inj, ← String.utf8Encode_toList, ← String.utf8Encode_toList,
    List.utf8Encode, List.utf8Encode, List.toByteArray_inj]
  rfl

/-! ### Reading -/

/-- The byte that a backslash and one character stand for. -/
def letterByte? (c : Char) : Option UInt8 :=
  if c = 'a' then some 0x07
  else if c = 'b' then some 0x08
  else if c = 't' then some 0x09
  else if c = 'n' then some 0x0A
  else if c = 'v' then some 0x0B
  else if c = 'f' then some 0x0C
  else if c = 'r' then some 0x0D
  else if c = '"' then some 0x22
  else if c = '\x27' then some 0x27
  else if c = '\\' then some 0x5C
  else none

/-- The byte with this code of two hexadecimal digits. -/
def codedByte? (high low : Char) : Option UInt8 := do
  let h ← Text.hexValue? high
  let l ← Text.hexValue? low
  return UInt8.ofNat (16 * h + l)

/-- Puts bytes in front of what has been read. -/
def saying (bytes : List UInt8) (read : List UInt8 × List Char) : List UInt8 × List Char :=
  (bytes ++ read.1, read.2)

/-- Reads a string from behind its opening quote: the bytes up to the first quote that is not
escaped, and the text behind that quote. -/
def readInside : List Char → Option (List UInt8 × List Char)
  | [] => none
  | '\\' :: 'x' :: high :: low :: rest => do
    let byte ← codedByte? high low
    return saying [byte] (← readInside rest)
  | '\\' :: c :: rest => do
    let byte ← if c ∈ ['"', '\\', 'n', 'r', 't'] then letterByte? c else none
    return saying [byte] (← readInside rest)
  | c :: rest =>
    if c = '"' then some ([], rest)
    else if c = '\\' ∨ c = '\n' then none
    else (readInside rest).map (saying (String.utf8EncodeChar c))

/-- Reads the string literal at the front of a text. -/
def readString? : List Char → Option (List UInt8 × List Char)
  | '"' :: rest => readInside rest
  | _ => none

/-! ### One character -/

theorem readInside_quote (rest : List Char) : readInside ('"' :: rest) = some ([], rest) := by
  rw [readInside]
  · rfl
  · exact nofun
  · exact nofun

theorem readInside_ordinary (ordinary : IsOrdinary c) (rest : List Char) :
    readInside (c :: rest) = (readInside rest).map (saying (String.utf8EncodeChar c)) := by
  obtain ⟨noQuote, noEscape, noLine⟩ := ordinary
  rw [readInside]
  · rw [if_neg noQuote, if_neg (by rintro (same | same) <;> contradiction)]
  · intro high low others same
    exact absurd same noEscape
  · intro d others same
    exact absurd same noEscape

/-- A control character's code is the code that it is written by. -/
theorem readInside_coded (coded : isCoded c = true) (rest : List Char) :
    readInside (escape c ++ rest) = (readInside rest).map (saying (String.utf8EncodeChar c)) := by
  have small : c.toNat < 0x80 := by
    simp only [isCoded, Bool.and_eq_true, Bool.or_eq_true, decide_eq_true_eq] at coded
    omega
  have byte : codedByte? (Text.hexDigit (c.toNat / 16)) (Text.hexDigit (c.toNat % 16)) =
      some (UInt8.ofNat c.toNat) := by
    unfold codedByte?
    rw [Text.hexValue?_hexDigit (by omega), Text.hexValue?_hexDigit (by omega)]
    show some (UInt8.ofNat (16 * (c.toNat / 16) + c.toNat % 16)) = _
    rw [Nat.div_add_mod]
  have alone : String.utf8EncodeChar c = [UInt8.ofNat c.toNat] := by
    refine String.utf8EncodeChar_eq_singleton ?_
    exact Char.utf8Size_eq_one_iff.mpr (by
      rw [UInt32.le_iff_toNat_le]
      exact Nat.le_of_lt_succ small)
  rw [escape_of_isCoded coded, alone]
  show readInside ('\\' :: 'x' :: Text.hexDigit (c.toNat / 16) ::
    Text.hexDigit (c.toNat % 16) :: rest) = _
  rw [readInside, byte]
  cases readInside rest <;> rfl

/-- What a character is written as is read as the character. -/
theorem readInside_escape_append (c : Char) (rest : List Char) :
    readInside (escape c ++ rest) = (readInside rest).map (saying (String.utf8EncodeChar c)) := by
  by_cases letter : c = '"' ∨ c = '\\' ∨ c = '\n' ∨ c = '\r' ∨ c = '\t'
  · -- These have a letter of their own.
    rcases letter with rfl | rfl | rfl | rfl | rfl <;>
    · show (do return saying _ (← readInside rest)) = _
      cases readInside rest <;> rfl
  · cases coded : isCoded c with
    | true => exact readInside_coded coded rest
    | false =>
      simp only [not_or] at letter
      obtain ⟨noQuote, noEscape, noLine, noReturn, noTab⟩ := letter
      have plain : escape c = [c] := by
        unfold escape
        rw [if_neg noQuote, if_neg noEscape, if_neg noLine, if_neg noReturn, if_neg noTab, if_neg]
        intro control
        simp [isCoded, control, noLine, noReturn, noTab] at coded
      rw [plain]
      exact readInside_ordinary ⟨noQuote, noEscape, noLine⟩ rest

/-! ### Literals -/

/-- The inside of a literal is read as the text, whatever follows. -/
theorem readInside_escapes_append (cs rest : List Char) :
    readInside (cs.flatMap escape ++ rest) = (readInside rest).map (saying (bytesOf cs)) := by
  induction cs with
  | nil =>
    rw [List.flatMap_nil, List.nil_append]
    cases readInside rest <;> rfl
  | cons c cs ih =>
    rw [List.flatMap_cons, List.append_assoc, readInside_escape_append, ih, Option.map_map]
    congr 1
    funext read
    show (String.utf8EncodeChar c ++ (bytesOf cs ++ read.1), read.2) = _
    rw [← List.append_assoc]
    rfl

/-- The literal of a text is read to its end and not beyond, and it says the text. -/
theorem readString?_quote_append (s : String) (rest : List Char) :
    readString? ((quote s).toList ++ rest) = some (bytesOf s.toList, rest) := by
  rw [toList_quote]
  unfold quoteChars
  rw [List.cons_append, List.append_assoc]
  show readInside (s.toList.flatMap escape ++ '"' :: rest) = _
  rw [readInside_escapes_append, readInside_quote]
  show some (bytesOf s.toList ++ [], rest) = _
  rw [List.append_nil]

/-- A literal that another one starts with is that one. -/
theorem eq_of_quote_append {s t : String} {rest : List Char}
    (same : (quote s).toList ++ rest = (quote t).toList) : s = t := by
  have other := readString?_quote_append t []
  rw [List.append_nil, ← same, readString?_quote_append] at other
  exact bytesOf_inj.mp (congrArg Prod.fst (Option.some.inj other))

/-- **Literals.** A reader of the language's strings reads exactly the literal of a text from any
text that starts with it, and understands the text. So texts with the same literal are the same,
and no literal is the beginning of another. -/
theorem quote_read_exactly (s t : String) (rest : List Char) :
    readString? ((quote s).toList ++ rest) = some (bytesOf s.toList, rest) ∧
      (quote s = quote t ↔ s = t) ∧
      ((quote s).toList <+: (quote t).toList ↔ s = t) := by
  refine ⟨readString?_quote_append s rest, ⟨fun same => ?_, congrArg quote⟩, ?_, ?_⟩
  · have ends : (quote s).toList ++ [] = (quote t).toList := by rw [same, List.append_nil]
    exact eq_of_quote_append ends
  · rintro ⟨more, same⟩
    exact eq_of_quote_append same
  · rintro rfl
    exact List.prefix_rfl

end Blockwork.Source
