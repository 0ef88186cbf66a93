import Blockwork.Proofs.Json.RoundTrip

/-!
# Objects of texts read back

An object whose members are texts is read back from the text that has each member on a line of
its own (`Json.parse?_pretty_texts`). The blanks in front of keys and values are passed over, and
what is left of a member is what the text without blanks has for it.
-/

namespace Blockwork.Json

variable {fuel depth : Nat}

/-- The members with these texts for values. -/
def textMembers (entries : List (String × String)) : List (String × Json) :=
  entries.map fun entry => (entry.1, .string entry.2)

/-! ### Blanks -/

/-- A new line with its indentation is nothing but blanks. -/
theorem skipSpace_newLine (depth : Nat) (cs : List Char) :
    skipSpace (newLine depth ++ cs) = skipSpace cs := by
  have blank : ∀ c ∈ newLine depth, isSpace c = true := by
    intro c mem
    rcases List.mem_cons.mp mem with rfl | mem
    · decide
    · obtain rfl := List.eq_of_mem_replicate mem
      decide
  unfold skipSpace
  exact List.dropWhile_append_of_pos blank

theorem readMembers?_newLine (cs : List Char) :
    readMembers? (fuel + 1) (newLine depth ++ cs) = readMembers? (fuel + 1) cs := by
  rw [readMembers?, readMembers?, skipSpace_newLine]

/-- A string behind a blank is read as a value. -/
theorem readValue?_blank_string (fuel : Nat) (text : String) (rest : List Char) :
    readValue? (fuel + 1) (' ' :: (writeString text ++ rest)) = some (.string text, rest) := by
  have blank : skipSpace (' ' :: (writeString text ++ rest)) = writeString text ++ rest := by
    show skipSpace (writeString text ++ rest) = _
    rw [writeString, List.cons_append, skipSpace_cons (by decide)]
  rw [readValue?, blank, writeString, List.cons_append, List.append_assoc]
  simp only [List.singleton_append, readString?_write, Option.map_some]
  rfl

/-! ### Members -/

theorem prettyChars_string (depth : Nat) (text : String) :
    prettyChars depth (.string text) = writeString text := by
  rw [prettyChars]
  · rfl
  · exact nofun
  · exact nofun

/-- A member on a line of its own. -/
def textLine (depth : Nat) (key text : String) : List Char :=
  newLine depth ++ (writeString key ++ ':' :: ' ' :: writeString text)

theorem prettyMembers_last (key text : String) :
    prettyMembers depth [(key, .string text)] = textLine depth key text := by
  rw [prettyMembers, prettyChars_string, textLine, List.append_assoc, List.append_assoc]
  rfl

theorem prettyMembers_more (key text : String) (next : String × Json)
    (members : List (String × Json)) :
    prettyMembers depth ((key, .string text) :: next :: members) =
      textLine depth key text ++ ',' :: prettyMembers depth (next :: members) := by
  have parts : prettyMembers depth ((key, .string text) :: next :: members) =
      newLine depth ++ writeString key ++ [':', ' '] ++ prettyChars depth (.string text) ++
        ',' :: prettyMembers depth (next :: members) := by
    rw [prettyMembers]
    · rfl
    · exact List.cons_ne_nil next members
  rw [parts, prettyChars_string, textLine]
  simp only [List.append_assoc, List.cons_append, List.nil_append]

/-- The lines of an object start with blanks and the quote of the first key. -/
theorem prettyMembers_start (depth : Nat) (first : String × String)
    (others : List (String × String)) :
    ∃ cs, prettyMembers depth (textMembers (first :: others)) = newLine depth ++ '"' :: cs := by
  obtain ⟨key, text⟩ := first
  cases others with
  | nil => exact ⟨_, prettyMembers_last key text⟩
  | cons next others =>
    have lines : prettyMembers depth (textMembers ((key, text) :: next :: others)) =
        textLine depth key text ++ ',' :: prettyMembers depth (textMembers (next :: others)) :=
      prettyMembers_more key text _ _
    rw [lines, textLine, List.append_assoc, writeString]
    exact ⟨_, rfl⟩

theorem length_prettyMembers (depth : Nat) (first : String × String)
    (others : List (String × String)) :
    others.length < (prettyMembers depth (textMembers (first :: others))).length := by
  induction others generalizing first with
  | nil =>
    obtain ⟨cs, lines⟩ := prettyMembers_start depth first []
    rw [lines, List.length_append, List.length_cons, List.length_nil]
    omega
  | cons next others ih =>
    have lines : prettyMembers depth (textMembers (first :: next :: others)) =
        textLine depth first.1 first.2 ++
          ',' :: prettyMembers depth (textMembers (next :: others)) :=
      prettyMembers_more first.1 first.2 _ _
    have later := ih next
    rw [lines, List.length_append, List.length_cons, List.length_cons]
    omega

/-- A member on the last line of an object is read with the end of the object. -/
theorem readMembers?_textLine_end (key text : String) (outer : Nat) (rest : List Char) :
    readMembers? (fuel + 2) (textLine depth key text ++ (newLine outer ++ '\x7d' :: rest)) =
      some ([(some key, .string text)], rest) := by
  have behind : skipSpace (newLine outer ++ '\x7d' :: rest) = '\x7d' :: rest := by
    rw [skipSpace_newLine, skipSpace_cons (by decide)]
  have value := readValue?_blank_string fuel text (newLine outer ++ '\x7d' :: rest)
  rw [textLine, List.append_assoc, readMembers?_newLine, List.append_assoc, writeString,
    List.cons_append, List.append_assoc, readMembers?, skipSpace_cons (by decide)]
  simp only [List.cons_append, List.nil_append, readString?_write,
    skipSpace_cons (c := ':') (by decide), value, behind]

/-- A member on a line that ends with a comma is read in front of the members behind it. -/
theorem readMembers?_textLine_more (key text : String) (rest : List Char) :
    readMembers? (fuel + 2) (textLine depth key text ++ ',' :: rest) =
      (readMembers? (fuel + 1) rest).map fun (members, rest) =>
        ((some key, .string text) :: members, rest) := by
  have value := readValue?_blank_string fuel text (',' :: rest)
  rw [textLine, List.append_assoc, readMembers?_newLine, List.append_assoc]
  exact readMembers?_more value key

/-- The members of an object of texts are read back up to its end. -/
theorem readMembers?_pretty (depth : Nat) (first : String × String)
    (others : List (String × String))
    (enough : others.length + 1 < fuel) (outer : Nat) (rest : List Char) :
    readMembers? fuel (prettyMembers depth (textMembers (first :: others)) ++
        (newLine outer ++ '\x7d' :: rest)) =
      some ((textMembers (first :: others)).map fun m => (some m.1, m.2), rest) := by
  obtain ⟨fuel, rfl⟩ : ∃ less, fuel = less + 2 := ⟨fuel - 2, by omega⟩
  induction others generalizing first fuel with
  | nil =>
    have line : prettyMembers depth (textMembers [first]) = textLine depth first.1 first.2 :=
      prettyMembers_last first.1 first.2
    rw [line, readMembers?_textLine_end]
    rfl
  | cons next others ih =>
    rw [List.length_cons] at enough
    obtain ⟨fuel, rfl⟩ : ∃ less, fuel = less + 1 := ⟨fuel - 1, by omega⟩
    have lines : prettyMembers depth (textMembers (first :: next :: others)) =
        textLine depth first.1 first.2 ++
          ',' :: prettyMembers depth (textMembers (next :: others)) :=
      prettyMembers_more first.1 first.2 _ _
    have later := ih next fuel (by omega)
    rw [lines, List.append_assoc, List.cons_append, readMembers?_textLine_more, later]
    rfl

/-- An object of texts is read back, whatever stands behind it. -/
theorem readValue?_pretty (first : String × String) (others : List (String × String))
    (enough : others.length + 1 < fuel) (outer : Nat) (rest : List Char) :
    readValue? (fuel + 1) ('\x7b' :: (prettyMembers depth (textMembers (first :: others)) ++
        (newLine outer ++ '\x7d' :: rest))) =
      some (.object (textMembers (first :: others)), rest) := by
  have members := readMembers?_pretty depth first others enough outer rest
  obtain ⟨fuel, rfl⟩ : ∃ less, fuel = less + 1 := ⟨fuel - 1, by omega⟩
  obtain ⟨cs, start⟩ := prettyMembers_start depth first others
  rw [start, List.append_assoc, List.cons_append] at members ⊢
  -- The brace is followed by blanks, behind which the quote of a key stands.
  rw [readMembers?_newLine] at members
  rw [readValue?, skipSpace_cons (by decide)]
  simp only [skipSpace_newLine, skipSpace_cons (c := '"') (by decide)]
  show (readMembers? (fuel + 1) _).map _ = _
  rw [members, Option.map_some]
  simp only [ofMembers_some]

/-- An object of texts is read back from the text with one member a line. -/
theorem parse?_pretty_texts (entries : List (String × String)) :
    parse? (pretty (.object (textMembers entries))) = some (.object (textMembers entries)) := by
  cases entries with
  | nil => rfl
  | cons first others =>
    have text : prettyChars 0 (.object (textMembers (first :: others))) =
        '\x7b' :: (prettyMembers 1 (textMembers (first :: others)) ++ (newLine 0 ++ ['\x7d'])) := by
      rw [textMembers, List.map_cons, prettyChars, List.append_assoc]
    have long := length_prettyMembers 1 first others
    unfold parse? pretty
    simp only [String.toList_ofList, text]
    rw [readValue?_pretty first others (by simp only [List.length_cons, List.length_append]; omega)]
    rfl

end Blockwork.Json
