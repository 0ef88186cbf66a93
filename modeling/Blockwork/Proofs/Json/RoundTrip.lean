import Blockwork.Proofs.Json.Numeral

/-!
# Documents read back

A document whose numerals are proper is read back from its text without blanks
(`Json.parse?_compact`). The lists and objects of the text are read by nested calls, whose fuel
is the length of what they have to read.
-/

namespace Blockwork.Json

variable {rest : List Char}

/-! ### Strings -/

theorem readPoints?_short {e c : Char} (short : e ≠ 'u') (named : escapedBy? e = some c)
    (cs : List Char) :
    readPoints? ('\\' :: e :: cs) =
      (readPoints? cs).map fun (points, tail) => (c.toNat :: points, tail) := by
  rw [readPoints?.eq_4]
  · rw [named]
    cases readPoints? cs <;> rfl
  · intro a b c d behind same
    exact absurd same short

theorem readPoints?_raw {c : Char} (quote : c ≠ '"') (backslash : c ≠ '\\')
    (shown : ¬ c.toNat < 0x20) (cs : List Char) :
    readPoints? (c :: cs) =
      (readPoints? cs).map fun (points, tail) => (c.toNat :: points, tail) := by
  rw [readPoints?.eq_5]
  · rw [if_neg shown]
    cases readPoints? cs <;> rfl
  · exact quote
  · intro a b c d behind same
    exact absurd same backslash
  · intro e behind same
    exact absurd same backslash

/-- How a character stands in a string is read back as that character. -/
theorem readPoints?_escape (c : Char) (cs : List Char) :
    readPoints? (escape c ++ cs) =
      (readPoints? cs).map fun (points, tail) => (c.toNat :: points, tail) := by
  have short : ∀ e d : Char, e ≠ 'u' → escapedBy? e = some d → c = d →
      readPoints? (['\\', e] ++ cs) =
        (readPoints? cs).map fun (points, tail) => (c.toNat :: points, tail) := by
    rintro e d short named rfl
    exact readPoints?_short short named cs
  have same : ∀ {n : Nat}, c.toNat = n → c = Char.ofNat n := by
    rintro n rfl
    exact (Char.ofNat_toNat c).symm
  -- The branches of the escape, one for each short form, then the long form and the raw one.
  unfold escape
  split
  · exact short '"' '"' (by decide) (by decide) ‹_›
  split
  · exact short '\\' '\\' (by decide) (by decide) ‹_›
  split
  · exact short 'b' _ (by decide) rfl (same ‹_›)
  split
  · exact short 'f' _ (by decide) rfl (same ‹_›)
  split
  · exact short 'n' '\n' (by decide) (by decide) ‹_›
  split
  · exact short 'r' '\r' (by decide) (by decide) ‹_›
  split
  · exact short 't' '\t' (by decide) (by decide) ‹_›
  rename_i quote backslash _ _ _ _ _
  split
  · have upper := Text.hexValue?_hexDigit (n := c.toNat / 16) (by omega)
    have lower := Text.hexValue?_hexDigit (n := c.toNat % 16) (by omega)
    have zero : Text.hexValue? '0' = some 0 := by decide
    have unit : ((0 * 16 + 0) * 16 + c.toNat / 16) * 16 + c.toNat % 16 = c.toNat := by omega
    simp only [List.cons_append, List.nil_append]
    rw [readPoints?, zero, upper, lower]
    simp only [Option.bind_eq_bind, Option.bind_some, unit]
    cases readPoints? cs <;> rfl
  · rename_i shown
    exact readPoints?_raw quote backslash shown cs

theorem readPoints?_flatMap_escape (s rest : List Char) :
    readPoints? (s.flatMap escape ++ '"' :: rest) = some (s.map Char.toNat, rest) := by
  induction s with
  | nil => rfl
  | cons c s ih =>
    rw [List.flatMap_cons, List.append_assoc, readPoints?_escape, ih]
    rfl

/-- A character is no half of a surrogate pair. -/
theorem not_isSurrogate (c : Char) :
    isHighSurrogate c.toNat = false ∧ isLowSurrogate c.toNat = false := by
  have valid : c.toNat < 0xD800 ∨ 0xDFFF < c.toNat ∧ c.toNat < 0x110000 := c.valid
  unfold isHighSurrogate isLowSurrogate
  simp only [Bool.and_eq_false_iff, decide_eq_false_iff_not]
  omega

theorem joinPairs?_map_toNat (s : List Char) : joinPairs? (s.map Char.toNat) = some s := by
  induction s with
  | nil => rfl
  | cons c s ih =>
    obtain ⟨high, low⟩ := not_isSurrogate c
    cases s with
    | nil =>
      rw [List.map_cons, List.map_nil, joinPairs?, high, low, Char.ofNat_toNat]
      rfl
    | cons d s =>
      rw [List.map_cons, List.map_cons, joinPairs?, high, low, Char.ofNat_toNat]
      rw [List.map_cons] at ih
      simp only [Bool.false_eq_true, if_false, ih, Option.map_some]

/-- A string is read back from its text. -/
theorem readString?_write (s : String) (rest : List Char) :
    readString? (s.toList.flatMap escape ++ '"' :: rest) = some (some s, rest) := by
  unfold readString?
  rw [readPoints?_flatMap_escape, Option.map_some]
  simp only
  rw [joinPairs?_map_toNat, Option.map_some, String.ofList_toList]

/-! ### Documents -/

mutual

/-- Every number in the document is spelled by a proper numeral. -/
def Proper : Json → Prop
  | .number n => n.IsProper
  | .array items => ProperItems items
  | .object members => ProperMembers members
  | _ => True

/-- `Proper` for the items of a list. -/
def ProperItems : List Json → Prop
  | [] => True
  | item :: rest => item.Proper ∧ ProperItems rest

/-- `Proper` for the members of an object. -/
def ProperMembers : List (String × Json) → Prop
  | [] => True
  | (_, value) :: rest => value.Proper ∧ ProperMembers rest

end

theorem skipSpace_cons {c : Char} (shown : isSpace c = false) (cs : List Char) :
    skipSpace (c :: cs) = c :: cs := by
  unfold skipSpace
  rw [List.dropWhile_cons, shown, if_neg (by decide)]

theorem endsNumeral_cons {c : Char} (other : Text.isDigit c = false ∧ c ≠ '.' ∧ c ≠ 'e' ∧ c ≠ 'E')
    (cs : List Char) : EndsNumeral (c :: cs) := by
  intro first mem
  obtain rfl : c = first := Option.some.inj mem
  exact other

/-- A numeral starts with a digit or a minus sign. -/
theorem writeNumeral_start {n : Numeral} (proper : n.IsProper) :
    ∃ c cs, writeNumeral n = c :: cs ∧ (Text.isDigit c = true ∨ c = '-') := by
  rw [writeNumeral_eq]
  split
  · exact ⟨'-', _, rfl, .inr rfl⟩
  · obtain ⟨c, cs, starts⟩ := List.exists_cons_of_ne_nil proper.start.ne_nil
    have digit : Text.isDigit c = true := proper.whole c (starts ▸ List.mem_cons_self)
    rw [starts]
    exact ⟨c, _, rfl, .inl digit⟩

theorem ne_of_numeral_start {c d : Char} (first : Text.isDigit c = true ∨ c = '-')
    (other : Text.isDigit d = false ∧ d ≠ '-') : c ≠ d := by
  rintro rfl
  rcases first with digit | minus
  · exact absurd (digit.symm.trans other.1) (by decide)
  · exact other.2 minus

theorem isSpace_of_numeral_start {c : Char} (first : Text.isDigit c = true ∨ c = '-') :
    isSpace c = false := by
  have blank := ne_of_numeral_start (d := ' ') first (by decide)
  have tab := ne_of_numeral_start (d := '\t') first (by decide)
  have newline := ne_of_numeral_start (d := '\n') first (by decide)
  have feed := ne_of_numeral_start (d := '\r') first (by decide)
  simp [isSpace, blank, tab, newline, feed]

theorem compactChars_null : compactChars .null = ['n', 'u', 'l', 'l'] := by
  decide

theorem compactChars_bool (value : Bool) :
    compactChars (.bool value) =
      if value then ['t', 'r', 'u', 'e'] else ['f', 'a', 'l', 's', 'e'] := by
  revert value
  decide

theorem compactChars_number (n : Numeral) : compactChars (.number n) = writeNumeral n := by
  rw [compactChars]
  · rfl
  · exact nofun
  · exact nofun

theorem compactChars_string (s : String) : compactChars (.string s) = writeString s := by
  rw [compactChars]
  · rfl
  · exact nofun
  · exact nofun

theorem compactChars_illFormed :
    compactChars .illFormed = ['"', '\\', 'u', 'd', '8', '0', '0', '"'] := by
  decide

/-- A document's text starts neither with a blank nor with a closing bracket. -/
theorem compactChars_start {j : Json} (proper : j.Proper) :
    ∃ c cs, compactChars j = c :: cs ∧ isSpace c = false ∧ c ≠ ']' := by
  cases j with
  | null => exact ⟨_, _, compactChars_null, by decide, by decide⟩
  | bool value =>
    rw [compactChars_bool]
    cases value with
    | true => exact ⟨_, _, rfl, by decide, by decide⟩
    | false => exact ⟨_, _, rfl, by decide, by decide⟩
  | number n =>
    obtain ⟨c, cs, starts, first⟩ := writeNumeral_start proper
    rw [compactChars_number]
    exact ⟨c, cs, starts, isSpace_of_numeral_start first, ne_of_numeral_start first (by decide)⟩
  | string s => exact ⟨'"', _, compactChars_string s, by decide, by decide⟩
  | illFormed => exact ⟨_, _, compactChars_illFormed, by decide, by decide⟩
  | array items => exact ⟨_, _, by rw [compactChars], by decide, by decide⟩
  | object members => exact ⟨_, _, by rw [compactChars], by decide, by decide⟩

/-- What starts like a numeral is read as one. -/
theorem readValue?_of_numeral_start {c : Char} {cs : List Char} (fuel : Nat)
    (first : Text.isDigit c = true ∨ c = '-') :
    readValue? (fuel + 1) (c :: cs) =
      (readNumeral? (c :: cs)).map fun (n, rest) => (.number n, rest) := by
  have other : ∀ d, Text.isDigit d = false ∧ d ≠ '-' → c ≠ d :=
    fun d => ne_of_numeral_start first
  rw [readValue?, skipSpace_cons (isSpace_of_numeral_start first)]
  split
  · rename_i same
    exact absurd (List.cons.inj same).1 (other '"' (by decide))
  · rename_i same
    exact absurd (List.cons.inj same).1 (other '[' (by decide))
  · rename_i same
    exact absurd (List.cons.inj same).1 (other '\x7b' (by decide))
  · rename_i same
    exact absurd (List.cons.inj same).1 (other 'n' (by decide))
  · rename_i same
    exact absurd (List.cons.inj same).1 (other 't' (by decide))
  · rename_i same
    exact absurd (List.cons.inj same).1 (other 'f' (by decide))
  · rfl

theorem readValue?_number {n : Numeral} (proper : n.IsProper) (ends : EndsNumeral rest)
    (fuel : Nat) :
    readValue? (fuel + 1) (writeNumeral n ++ rest) = some (.number n, rest) := by
  have whole := readNumeral?_write proper ends
  obtain ⟨c, cs, starts, first⟩ := writeNumeral_start proper
  rw [starts, List.cons_append] at whole ⊢
  rw [readValue?_of_numeral_start fuel first, whole]
  rfl

theorem compactItems_start {item : Json} (proper : item.Proper) (items : List Json) :
    ∃ c cs, compactItems (item :: items) = c :: cs ∧ isSpace c = false ∧ c ≠ ']' := by
  obtain ⟨c, cs, starts, first⟩ := compactChars_start proper
  cases items with
  | nil => exact ⟨c, cs, by rw [compactItems, starts], first⟩
  | cons next rest => exact ⟨c, _, by rw [compactItems, starts, List.cons_append]; simp, first⟩

theorem compactMembers_start (member : String × Json) (members : List (String × Json)) :
    ∃ cs, compactMembers (member :: members) = '"' :: cs := by
  obtain ⟨key, value⟩ := member
  cases members with
  | nil => exact ⟨_, by rw [compactMembers, writeString, List.cons_append]⟩
  | cons next rest => exact ⟨_, by rw [compactMembers, writeString, List.cons_append]; simp⟩

/-- A list that does not close at once is read item by item. -/
theorem readValue?_array {c : Char} (shown : isSpace c = false) (other : c ≠ ']') (fuel : Nat)
    (cs : List Char) :
    readValue? (fuel + 1) ('[' :: c :: cs) =
      (readItems? fuel (c :: cs)).map fun (items, rest) => (.array items, rest) := by
  rw [readValue?, skipSpace_cons (by decide)]
  simp only [skipSpace_cons shown]
  split
  · rename_i same
    exact absurd (List.cons.inj same).1 other
  · rfl

/-- An object with a key is read member by member. -/
theorem readValue?_object (fuel : Nat) (cs : List Char) :
    readValue? (fuel + 1) ('\x7b' :: '"' :: cs) =
      (readMembers? fuel ('"' :: cs)).map fun (members, rest) => (ofMembers members, rest) := by
  rw [readValue?, skipSpace_cons (by decide)]
  simp only [skipSpace_cons (c := '"') (by decide)]
  rfl

theorem readMembers?_last {fuel : Nat} {text rest : List Char} {value : Json}
    (read : readValue? fuel text = some (value, '\x7d' :: rest)) (key : String) :
    readMembers? (fuel + 1) (writeString key ++ ':' :: text) =
      some ([(some key, value)], rest) := by
  rw [writeString, List.cons_append, List.append_assoc, readMembers?, skipSpace_cons (by decide)]
  simp only [List.singleton_append, readString?_write, skipSpace_cons (c := ':') (by decide), read,
    skipSpace_cons (c := '\x7d') (by decide)]

theorem readMembers?_more {fuel : Nat} {text rest : List Char} {value : Json}
    (read : readValue? fuel text = some (value, ',' :: rest)) (key : String) :
    readMembers? (fuel + 1) (writeString key ++ ':' :: text) =
      (readMembers? fuel rest).map fun (members, rest) => ((some key, value) :: members, rest) := by
  rw [writeString, List.cons_append, List.append_assoc, readMembers?, skipSpace_cons (by decide)]
  simp only [List.singleton_append, readString?_write, skipSpace_cons (c := ':') (by decide), read,
    skipSpace_cons (c := ',') (by decide)]

theorem ofMembers_some (members : List (String × Json)) :
    ofMembers (members.map fun m => (some m.1, m.2)) = .object members := by
  have keys : (members.map fun m => (some m.1, m.2)).all (fun m => m.1.isSome) = true := by
    rw [List.all_map]
    exact List.all_eq_true.mpr fun _ _ => rfl
  unfold ofMembers
  rw [if_pos keys, List.map_map]
  exact congrArg Json.object (List.map_id members)

mutual

/-- A document whose numerals are proper is read back from its text. -/
theorem readValue?_compact (j : Json) (proper : j.Proper) (fuel : Nat)
    (enough : (compactChars j).length ≤ fuel) {rest : List Char} (ends : EndsNumeral rest) :
    readValue? fuel (compactChars j ++ rest) = some (j, rest) := by
  obtain ⟨c, cs, starts, -⟩ := compactChars_start proper
  obtain ⟨fuel, rfl⟩ : ∃ less, fuel = less + 1 := by
    rw [starts, List.length_cons] at enough
    exact ⟨fuel - 1, by omega⟩
  cases j with
  | null =>
    rw [compactChars_null, List.cons_append, readValue?, skipSpace_cons (by decide)]
    rfl
  | bool value =>
    rw [compactChars_bool]
    cases value with
    | true =>
      rw [if_pos rfl, List.cons_append, readValue?, skipSpace_cons (by decide)]
      rfl
    | false =>
      rw [if_neg (by decide), List.cons_append, readValue?, skipSpace_cons (by decide)]
      rfl
  | number n =>
    rw [compactChars_number]
    exact readValue?_number proper ends fuel
  | string s =>
    rw [compactChars_string, writeString, List.cons_append, List.append_assoc, readValue?,
      skipSpace_cons (by decide)]
    simp only [List.singleton_append, readString?_write, Option.map_some]
    rfl
  | illFormed =>
    rw [compactChars_illFormed, List.cons_append, readValue?, skipSpace_cons (by decide)]
    rfl
  | array items =>
    cases items with
    | nil =>
      rw [compactChars, compactItems, List.cons_append, readValue?, skipSpace_cons (by decide)]
      rfl
    | cons item items =>
      obtain ⟨first, others, begins, shown, other⟩ := compactItems_start proper.1 items
      rw [compactChars] at enough ⊢
      rw [List.length_cons, List.length_append, List.length_singleton] at enough
      have inside := readItems?_compact item items proper fuel (by omega) rest
      rw [List.cons_append, List.append_assoc, List.singleton_append]
      rw [begins, List.cons_append] at inside ⊢
      rw [readValue?_array shown other, inside]
      rfl
  | object members =>
    cases members with
    | nil =>
      rw [compactChars, compactMembers, List.cons_append, readValue?, skipSpace_cons (by decide)]
      rfl
    | cons member members =>
      obtain ⟨others, begins⟩ := compactMembers_start member members
      rw [compactChars] at enough ⊢
      rw [List.length_cons, List.length_append, List.length_singleton] at enough
      have inside := readMembers?_compact member members proper fuel (by omega) rest
      rw [List.cons_append, List.append_assoc, List.singleton_append]
      rw [begins, List.cons_append] at inside ⊢
      rw [readValue?_object, inside, Option.map_some]
      simp only
      rw [ofMembers_some]

/-- The items of a list are read back up to its end. -/
theorem readItems?_compact (item : Json) (items : List Json) (proper : ProperItems (item :: items))
    (fuel : Nat) (enough : (compactItems (item :: items)).length < fuel) (rest : List Char) :
    readItems? fuel (compactItems (item :: items) ++ ']' :: rest) = some (item :: items, rest) := by
  obtain ⟨fuel, rfl⟩ : ∃ less, fuel = less + 1 := ⟨fuel - 1, by omega⟩
  obtain ⟨here, there⟩ := proper
  cases items with
  | nil =>
    rw [compactItems] at enough ⊢
    have first := readValue?_compact item here fuel (by omega)
      (endsNumeral_cons (c := ']') (by decide) rest)
    rw [readItems?, first]
    simp only [skipSpace_cons (c := ']') (by decide)]
  | cons next items =>
    have text : compactItems (item :: next :: items) =
        compactChars item ++ ',' :: compactItems (next :: items) := by
      rw [compactItems]
      exact nofun
    rw [text, List.length_append, List.length_cons] at enough
    have first := readValue?_compact item here fuel (by omega)
      (endsNumeral_cons (c := ',') (by decide) (compactItems (next :: items) ++ ']' :: rest))
    have others := readItems?_compact next items there fuel (by omega) rest
    rw [text, List.append_assoc, List.cons_append, readItems?, first]
    simp only [skipSpace_cons (c := ',') (by decide), others, Option.map_some]

/-- The members of an object are read back up to its end. -/
theorem readMembers?_compact (member : String × Json) (members : List (String × Json))
    (proper : ProperMembers (member :: members)) (fuel : Nat)
    (enough : (compactMembers (member :: members)).length < fuel) (rest : List Char) :
    readMembers? fuel (compactMembers (member :: members) ++ '\x7d' :: rest) =
      some ((member :: members).map fun m => (some m.1, m.2), rest) := by
  obtain ⟨fuel, rfl⟩ : ∃ less, fuel = less + 1 := ⟨fuel - 1, by omega⟩
  obtain ⟨key, value⟩ := member
  obtain ⟨here, there⟩ := proper
  cases members with
  | nil =>
    rw [compactMembers] at enough ⊢
    rw [List.length_append, List.length_cons] at enough
    have first := readValue?_compact value here fuel (by omega)
      (endsNumeral_cons (c := '\x7d') (by decide) rest)
    rw [List.append_assoc, List.cons_append, readMembers?_last first]
    rfl
  | cons next members =>
    have text : compactMembers ((key, value) :: next :: members) =
        writeString key ++
          ':' :: (compactChars value ++ ',' :: compactMembers (next :: members)) := by
      rw [compactMembers]
      exact nofun
    rw [text, List.length_append, List.length_cons, List.length_append, List.length_cons] at enough
    have first := readValue?_compact value here fuel (by omega)
      (endsNumeral_cons (c := ',') (by decide) (compactMembers (next :: members) ++ '\x7d' :: rest))
    have others := readMembers?_compact next members there fuel (by omega) rest
    rw [text, List.append_assoc, List.cons_append, List.append_assoc, List.cons_append,
      readMembers?_more first, others]
    rfl

end

/-- A document whose numerals are proper is read back from its text without blanks. -/
theorem parse?_compact {j : Json} (proper : j.Proper) : parse? (compact j) = some j := by
  have read := readValue?_compact j proper ((compactChars j).length + 1) (by omega)
    endsNumeral_nil
  rw [List.append_nil] at read
  unfold parse? compact
  simp only [String.toList_ofList, read]
  rfl

end Blockwork.Json
