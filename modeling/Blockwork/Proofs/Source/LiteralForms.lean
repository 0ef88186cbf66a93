import Blockwork.Proofs.Source.StringReader

/-!
# The literals that are read

The literals of the language as a grammar: a `Literal` is a delimiter and the signs between its
two occurrences, each of which is written and says something (`Sign.text`, `Sign.value`). Strings
between quotes have escapes; strings between back quotes have none, and lose their carriage
returns. Values between single quotes are strings with another delimiter.

* **what is accepted** — `isSome_literalChars?`: any text that starts and ends with the same
  delimiter, whatever stands between them;
* **what is read** — `Literal.read`: the signs one by one, with only some of the escapes resolved;
* **what is said** — `Literal.bytesOf_read_eq_iff`: of a literal, exactly when it has no sign that
  reading does not know.
-/

namespace Blockwork.Source

variable {c : Char} {cs rest inside : List Char}

/-! ### The grammar -/

/-- The ways to write a byte or a character by its code. -/
inductive CodeForm where
  /-- A byte by three octal digits. -/
  | octal
  /-- A byte by two hexadecimal digits. -/
  | byte
  /-- A character by four hexadecimal digits. -/
  | short
  /-- A character by eight hexadecimal digits. -/
  | long
deriving DecidableEq, Repr

namespace CodeForm

/-- What stands between the backslash and the digits. -/
def mark : CodeForm → List Char
  | octal => []
  | byte => ['x']
  | short => ['u']
  | long => ['U']

def base : CodeForm → Nat
  | octal => 8
  | byte | short | long => 16

/-- The number of digits. -/
def length : CodeForm → Nat
  | octal => 3
  | byte => 2
  | short => 4
  | long => 8

/-- The code that the digits are. -/
def code (form : CodeForm) (digits : List Char) : Nat :=
  digits.foldl (fun n digit => form.base * n + (Text.hexValue? digit).getD 0) 0

/-- The bytes with this code. -/
def bytes (form : CodeForm) (code : Nat) : List UInt8 :=
  match form with
  | octal | byte => [UInt8.ofNat code]
  | short | long => String.utf8EncodeChar (Char.ofNat code)

/-- Whether there is a byte or a character with this code. -/
def Names (form : CodeForm) (code : Nat) : Prop :=
  match form with
  | octal | byte => code < 0x100
  | short | long => code.isValidChar

instance (form : CodeForm) (code : Nat) : Decidable (form.Names code) :=
  match form with
  | octal | byte => inferInstanceAs (Decidable (_ < _))
  | short | long => inferInstanceAs (Decidable (_ ∨ _))

end CodeForm

/-- A sign inside a literal. -/
inductive Sign where
  /-- A character that stands for itself. -/
  | plain (c : Char)
  /-- A carriage return that is left out. -/
  | dropped
  /-- A backslash and a character. -/
  | letter (c : Char)
  /-- A backslash and a code. -/
  | code (form : CodeForm) (digits : List Char)
deriving DecidableEq, Repr

namespace Sign

/-- How the sign is written. -/
def text : Sign → List Char
  | plain c => [c]
  | dropped => ['\r']
  | letter c => ['\\', c]
  | code form digits => '\\' :: (form.mark ++ digits)

/-- What the sign says. -/
def value : Sign → List UInt8
  | plain c => String.utf8EncodeChar c
  | dropped => []
  | letter c => (letterByte? c).toList
  | code form digits => form.bytes (form.code digits)

/-- Whether the sign can stand between these delimiters. Between single quotes the quotes of
both kinds can be escaped. -/
def StandsBetween (delimiter : Char) : Sign → Prop
  | plain c =>
    c ≠ delimiter ∧ (delimiter = '\x60' → c ≠ '\r') ∧
      (delimiter ≠ '\x60' → c ≠ '\\' ∧ c ≠ '\n')
  | dropped => delimiter = '\x60'
  | letter c =>
    delimiter ≠ '\x60' ∧ (letterByte? c).isSome ∧ (c = '\x27' → delimiter = '\x27')
  | code form digits =>
    delimiter ≠ '\x60' ∧ digits.length = form.length ∧
      digits.all (fun digit => (Text.hexValue? digit).any (· < form.base)) = true ∧
      form.Names (form.code digits)

instance (delimiter : Char) : DecidablePred (StandsBetween delimiter)
  | plain _ => inferInstanceAs (Decidable (_ ∧ (_ → _) ∧ (_ → _)))
  | dropped => inferInstanceAs (Decidable (_ = _))
  | letter _ => inferInstanceAs (Decidable (_ ∧ _ ∧ (_ → _)))
  | code .. => inferInstanceAs (Decidable (_ ∧ _ ∧ _ ∧ _))

/-- The signs that are read as what they say. -/
def IsKnown : Sign → Prop
  | plain _ => True
  | letter c => c ∈ ['n', 'r', 't', '\\', '\x27', '"']
  | dropped | code .. => False

/-- What is read of the sign. -/
def read : Sign → List Char
  | letter c => (escapedBy? c).elim ['\\', c] fun e => [e]
  | other => other.text

end Sign

/-- The delimiters of literals. -/
def delimiters : List Char := ['"', '\x60', '\x27']

/-- A literal: signs between two occurrences of a delimiter. -/
structure Literal where
  delimiter : Char
  signs : List Sign
  delimits : delimiter ∈ delimiters
  stand : ∀ sign ∈ signs, sign.StandsBetween delimiter

namespace Literal

/-- How the literal is written. -/
def text (literal : Literal) : List Char :=
  literal.delimiter :: (literal.signs.flatMap Sign.text ++ [literal.delimiter])

/-- What the literal says. -/
def value (literal : Literal) : List UInt8 :=
  literal.signs.flatMap Sign.value

/-- What is read of the literal. -/
def read (literal : Literal) : List Char :=
  literal.signs.flatMap Sign.read

end Literal

/-! ### What is accepted -/

/-- The text starts and ends with the same delimiter. -/
def IsDelimited (cs : List Char) : Prop :=
  ∃ delimiter ∈ delimiters, ∃ inside, cs = delimiter :: (inside ++ [delimiter])

theorem inside?_eq_some_iff {delimiter : Char} :
    inside? delimiter cs = some inside ↔ cs = delimiter :: (inside ++ [delimiter]) := by
  constructor
  · intro found
    cases cs with
    | nil => exact nomatch found
    | cons c rest =>
      rw [inside?] at found
      split at found
      · rename_i both
        obtain ⟨rfl, last⟩ := both
        obtain ⟨front, rfl⟩ := List.getLast?_eq_some_iff.mp last
        rw [List.dropLast_concat] at found
        rw [Option.some.inj found]
      · cases found
  · rintro rfl
    exact inside?_delimited delimiter inside

theorem inside?_of_ne {delimiter other : Char} (apart : delimiter ≠ other) (rest : List Char) :
    inside? other (delimiter :: rest) = none := by
  rw [inside?, if_neg fun both => apart both.1]

/-- Between delimiters everything is read, and between back quotes as it stands. -/
theorem literalChars?_delimited {delimiter : Char} (delimits : delimiter ∈ delimiters)
    (inside : List Char) : literalChars? (delimiter :: (inside ++ [delimiter])) =
      some (if delimiter = '\x60' then inside else resolveEscapes inside) := by
  unfold literalChars?
  simp only [delimiters, List.mem_cons, List.not_mem_nil, or_false] at delimits
  rcases delimits with rfl | rfl | rfl
  · rw [inside?_delimited, if_neg (by decide)]
  · rw [inside?_of_ne (by decide), inside?_delimited, if_pos rfl]
  · rw [inside?_of_ne (by decide), inside?_of_ne (by decide), inside?_delimited,
      if_neg (by decide)]
    rfl

/-- A text is accepted as soon as it starts and ends with the same delimiter. -/
theorem isSome_literalChars? : (literalChars? cs).isSome ↔ IsDelimited cs := by
  constructor
  · intro accepted
    unfold literalChars? at accepted
    cases string : inside? '"' cs with
    | some inside => exact ⟨'"', by decide, inside, inside?_eq_some_iff.mp string⟩
    | none =>
      cases raw : inside? '\x60' cs with
      | some inside => exact ⟨'\x60', by decide, inside, inside?_eq_some_iff.mp raw⟩
      | none =>
        rw [string, raw, Option.isSome_map, Option.isSome_iff_exists] at accepted
        obtain ⟨inside, value⟩ := accepted
        exact ⟨'\x27', by decide, inside, inside?_eq_some_iff.mp value⟩
  · rintro ⟨delimiter, delimits, inside, rfl⟩
    rw [literalChars?_delimited delimits]
    rfl

/-! ### What is read -/

/-- The letters that reading knows. -/
theorem isSome_escapedBy? : (escapedBy? c).isSome ↔ c ∈ ['n', 'r', 't', '\\', '\x27', '"'] := by
  unfold escapedBy?
  repeat' split
  all_goals simp_all

theorem escapedBy?_of_isDigit {p : Nat → Bool} (digit : (Text.hexValue? c).any p = true) :
    escapedBy? c = none ∧ c ≠ '\\' := by
  have none : ∀ letter ∈ ['n', 'r', 't', '\\', '\x27', '"'], Text.hexValue? letter = none :=
    Text.forall_mem_of_all (by decide)
  have other : c ∉ ['n', 'r', 't', '\\', '\x27', '"'] := by
    intro mem
    rw [none c mem] at digit
    exact nomatch digit
  refine ⟨Option.not_isSome_iff_eq_none.mp fun some => other (isSome_escapedBy?.mp some), ?_⟩
  rintro rfl
  exact other (by decide)

theorem resolveEscapes_append (ordinary : ∀ c ∈ cs, c ≠ '\\') (rest : List Char) :
    resolveEscapes (cs ++ rest) = cs ++ resolveEscapes rest := by
  induction cs with
  | nil => rfl
  | cons c cs ih =>
    rw [List.cons_append, resolveEscapes_cons (ordinary c List.mem_cons_self),
      ih fun d mem => ordinary d (List.mem_cons_of_mem _ mem), List.cons_append]

/-- An escape that reading does not know stays as it is written. -/
theorem resolveEscapes_unknown (unknown : escapedBy? c = none)
    (ordinary : ∀ d ∈ cs, d ≠ '\\') (rest : List Char) :
    resolveEscapes ('\\' :: c :: cs ++ rest) = '\\' :: c :: cs ++ resolveEscapes rest := by
  rw [List.cons_append, List.cons_append, resolveEscapes, if_pos rfl, unknown]
  simp only
  rw [resolveEscapes_append ordinary]
  rfl

namespace Sign

variable {delimiter : Char} {sign : Sign}

/-- Between quotes the signs are read one after the other. -/
theorem resolveEscapes_text_append (stands : sign.StandsBetween delimiter)
    (escapes : delimiter ≠ '\x60') (rest : List Char) :
    resolveEscapes (sign.text ++ rest) = sign.read ++ resolveEscapes rest := by
  cases sign with
  | plain c => exact resolveEscapes_cons (stands.2.2 escapes).1 rest
  | dropped => exact absurd stands escapes
  | letter c =>
    show resolveEscapes ('\\' :: c :: rest) = (escapedBy? c).elim ['\\', c] (fun e => [e]) ++ _
    rw [resolveEscapes, if_pos rfl]
    cases escapedBy? c <;> rfl
  | code form digits =>
    obtain ⟨-, size, hex, -⟩ := stands
    rw [List.all_eq_true] at hex
    have ordinary : ∀ digit ∈ digits, digit ≠ '\\' :=
      fun digit mem => (escapedBy?_of_isDigit (hex digit mem)).2
    cases form with
    | octal =>
      -- Without a mark the first digit stands behind the backslash.
      cases digits with
      | nil => exact absurd size (by decide)
      | cons digit others =>
        exact resolveEscapes_unknown (escapedBy?_of_isDigit (hex digit List.mem_cons_self)).1
          (fun d mem => ordinary d (List.mem_cons_of_mem _ mem)) rest
    | byte | short | long => exact resolveEscapes_unknown (by decide) ordinary rest

/-- Between back quotes nothing is an escape. -/
theorem read_eq_text (stands : sign.StandsBetween '\x60') : sign.read = sign.text := by
  cases sign with
  | plain c => rfl
  | dropped => rfl
  | letter c => exact absurd rfl stands.1
  | code form digits => rfl

end Sign

namespace Literal

theorem resolveEscapes_signs {delimiter : Char} (escapes : delimiter ≠ '\x60') {signs : List Sign}
    (stand : ∀ sign ∈ signs, sign.StandsBetween delimiter) :
    resolveEscapes (signs.flatMap Sign.text) = signs.flatMap Sign.read := by
  induction signs with
  | nil => rfl
  | cons sign signs ih =>
    rw [List.flatMap_cons, List.flatMap_cons,
      Sign.resolveEscapes_text_append (stand sign List.mem_cons_self) escapes,
      ih fun other mem => stand other (List.mem_cons_of_mem _ mem)]

/-- Every literal is accepted, and its signs are read one after the other. -/
theorem literalChars?_text (literal : Literal) :
    literalChars? literal.text = some literal.read := by
  obtain ⟨delimiter, signs, delimits, stand⟩ := literal
  rw [text, literalChars?_delimited delimits]
  congr 1
  split
  · rename_i raw
    subst raw
    have same : ∀ sign ∈ signs, sign.text = sign.read :=
      fun sign mem => (Sign.read_eq_text (stand sign mem)).symm
    rw [List.flatMap_def, List.map_congr_left same]
    rfl
  · rename_i escapes
    exact resolveEscapes_signs escapes stand

end Literal

/-! ### What is said -/

theorem length_le_bytesOf (cs : List Char) : cs.length ≤ (bytesOf cs).length := by
  induction cs with
  | nil => exact Nat.le_refl 0
  | cons c cs ih =>
    have := c.utf8Size_pos
    rw [bytesOf_cons, List.length_append, String.length_utf8EncodeChar, List.length_cons]
    omega

namespace CodeForm

/-- A code is longer than what it names. -/
theorem length_bytes_lt (form : CodeForm) (code : Nat) :
    (form.bytes code).length < form.length + 1 := by
  have size := Char.utf8Size_le_four (Char.ofNat code)
  cases form with
  | octal => exact (by decide : 1 < 4)
  | byte => exact (by decide : 1 < 3)
  | short | long =>
    rw [bytes, String.length_utf8EncodeChar, length]
    omega

end CodeForm

namespace Sign

variable {delimiter : Char} {sign : Sign}

theorem bytesOf_read (known : sign.IsKnown) : bytesOf sign.read = sign.value := by
  cases sign with
  | plain c => exact List.append_nil _
  | letter c =>
    have all : ∀ letter ∈ ['n', 'r', 't', '\\', '\x27', '"'],
        bytesOf (read (.letter letter)) = value (.letter letter) :=
      Text.forall_mem_of_all (by decide)
    exact all c known
  | dropped | code form digits => exact known.elim

/-- What reading does not know is read as more than it says. -/
theorem length_value_lt (stands : sign.StandsBetween delimiter) (unknown : ¬ sign.IsKnown) :
    sign.value.length < (bytesOf sign.read).length := by
  cases sign with
  | plain c => exact absurd trivial unknown
  | dropped => decide
  | letter c =>
    have none : escapedBy? c = none :=
      Option.not_isSome_iff_eq_none.mp fun some => unknown (isSome_escapedBy?.mp some)
    have written : read (.letter c) = ['\\', c] := by rw [read, none]; rfl
    have long := length_le_bytesOf (read (.letter c))
    rw [written] at long ⊢
    have short : (value (.letter c)).length ≤ 1 := by
      rw [value]
      cases letterByte? c <;> simp
    exact Nat.lt_of_le_of_lt short long
  | code form digits =>
    have long := length_le_bytesOf (read (.code form digits))
    have short := form.length_bytes_lt (form.code digits)
    have written : (read (.code form digits)).length = 1 + form.mark.length + form.length := by
      rw [← stands.2.1]
      show (form.mark ++ digits).length + 1 = _
      rw [List.length_append]
      omega
    show (form.bytes (form.code digits)).length < _
    omega

theorem length_value_le (stands : sign.StandsBetween delimiter) :
    sign.value.length ≤ (bytesOf sign.read).length := by
  by_cases known : sign.IsKnown
  · exact Nat.le_of_eq (congrArg List.length (bytesOf_read known).symm)
  · exact Nat.le_of_lt (length_value_lt stands known)

end Sign

namespace Literal

/-- Signs are read as what they say exactly when reading knows them all, because what it does
not know makes the text longer. -/
theorem bytesOf_signs_iff {delimiter : Char} {signs : List Sign}
    (stand : ∀ sign ∈ signs, sign.StandsBetween delimiter) :
    (signs.flatMap Sign.value).length ≤ (bytesOf (signs.flatMap Sign.read)).length ∧
      (bytesOf (signs.flatMap Sign.read) = signs.flatMap Sign.value ↔
        ∀ sign ∈ signs, sign.IsKnown) := by
  induction signs with
  | nil => exact ⟨Nat.le_refl 0, iff_of_true rfl nofun⟩
  | cons sign signs ih =>
    have here := stand sign List.mem_cons_self
    obtain ⟨shorter, same⟩ := ih fun other mem => stand other (List.mem_cons_of_mem _ mem)
    have short := Sign.length_value_le here
    rw [List.flatMap_cons, List.flatMap_cons, bytesOf_append, List.forall_mem_cons]
    refine ⟨?_, ?_⟩
    · rw [List.length_append, List.length_append]
      omega
    by_cases known : sign.IsKnown
    · rw [Sign.bytesOf_read known, List.append_cancel_left_eq, same, and_iff_right known]
    · refine iff_of_false (fun equal => ?_) fun both => known both.1
      have lengths := congrArg List.length equal
      have longer := Sign.length_value_lt here known
      rw [List.length_append, List.length_append] at lengths
      omega

theorem bytesOf_read_eq_iff (literal : Literal) :
    bytesOf literal.read = literal.value ↔ ∀ sign ∈ literal.signs, sign.IsKnown :=
  (bytesOf_signs_iff literal.stand).2

end Literal

/-- **Reading literals.** A text is accepted, with the blanks around it ignored, exactly when it
starts and ends with the same delimiter, whether it is one literal or not. One literal is always
accepted, and what is read of it is what it says exactly when it has no escapes but those of a
line end, a carriage return, a tab, a backslash and the quotes, and no carriage return between
back quotes. -/
theorem literals_accepted_and_read (s : String) :
    ((literalText? s).isSome ↔ IsDelimited (Text.trim s).toList) ∧
      ∀ literal : Literal, (Text.trim s).toList = literal.text →
        ∃ t, literalText? s = some t ∧
          (bytesOf t.toList = literal.value ↔ ∀ sign ∈ literal.signs, sign.IsKnown) := by
  rw [Text.toList_trim]
  refine ⟨?_, fun literal written => ?_⟩
  · rw [literalText?, Option.isSome_map, isSome_literalChars?]
  · refine ⟨String.ofList literal.read, ?_, ?_⟩
    · rw [literalText?, written, literal.literalChars?_text]
      rfl
    · rw [String.toList_ofList, literal.bytesOf_read_eq_iff]

/-- A string with a tab and a byte by its code: only the tab is read as what it says. -/
theorem literals_accepted_and_read_of_code :
    let literal : Literal :=
      ⟨'"', [.letter 't', .code .byte ['4', '1']], by decide, by decide⟩
    (Text.trim " \"\\t\\x41\"\n").toList = literal.text ∧
      ∃ t, literalText? " \"\\t\\x41\"\n" = some t ∧ bytesOf t.toList ≠ literal.value := by
  intro literal
  have written : (Text.trim " \"\\t\\x41\"\n").toList = literal.text := by decide
  obtain ⟨t, read, said⟩ := (literals_accepted_and_read _).2 literal written
  refine ⟨written, t, read, fun same => ?_⟩
  exact said.mp same (.code .byte ['4', '1']) (by decide)

/-- Without a backslash a delimiter does not stand inside a literal. -/
theorem Literal.not_mem_of_no_escape (literal : Literal)
    (plain : '\\' ∉ literal.signs.flatMap Sign.text) :
    literal.delimiter ∉ literal.signs.flatMap Sign.text := by
  intro mem
  obtain ⟨sign, among, inside⟩ := List.mem_flatMap.mp mem
  have stands := literal.stand sign among
  have escape : '\\' ∉ sign.text := fun here => plain (List.mem_flatMap.mpr ⟨sign, among, here⟩)
  cases sign with
  | plain c => exact stands.1 (List.mem_singleton.mp inside).symm
  | dropped =>
    have raw : literal.delimiter = '\x60' := stands
    rw [raw] at inside
    exact absurd inside (by decide)
  | letter c => exact escape List.mem_cons_self
  | code form digits => exact escape List.mem_cons_self

/-- Two strings with an operator between them are no literal, but they are accepted as one. -/
theorem joined_strings_accepted :
    literalText? "\"a\" + \"b\"" = some "a\" + \"b" ∧
      ¬ ∃ literal : Literal, "\"a\" + \"b\"".toList = literal.text := by
  refine ⟨by decide, ?_⟩
  rintro ⟨literal, written⟩
  have letters : "\"a\" + \"b\"" =
      String.ofList ('"' :: (['a', '"', ' ', '+', ' ', '"', 'b'] ++ ['"'])) := rfl
  rw [letters, String.toList_ofList] at written
  obtain ⟨front, back⟩ := List.cons.inj written
  rw [← front] at back
  have inside := List.append_cancel_right back
  refine literal.not_mem_of_no_escape ?_ ?_
  · rw [← inside]
    decide
  · rw [← inside, ← front]
    decide

end Blockwork.Source
