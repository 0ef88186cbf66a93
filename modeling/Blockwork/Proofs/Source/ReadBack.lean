import Blockwork.Proofs.Source.Twins

/-!
# Literals read back

Quoting writes a character as it is, by an escape of a single letter, or, when it is a control
character without a letter of its own, by its code. Reading resolves the escapes of a single
letter only. So what is read back of a literal is its text with the codes left in it
(`literalText?_quote`), and that is the text itself exactly when nothing in it was written by its
code (`reread_eq_iff`).
-/

namespace Blockwork.Source

variable {c : Char} {cs rest : List Char}

/-- A character that quoting writes by its code: a control character without a letter of its
own. -/
def isCoded (c : Char) : Bool :=
  (c.toNat < 0x20 || c.toNat = 0x7F) && !(c = '\n' || c = '\r' || c = '\t')

/-- What is read back of a character: what is written by its code stays in that form. -/
def rereadChar (c : Char) : List Char :=
  if isCoded c then escape c else [c]

/-- What is read back of the literal of a text. -/
def reread (s : String) : String :=
  String.ofList (s.toList.flatMap rereadChar)

/-! ### One character -/

theorem ne_of_isCoded (coded : isCoded c = true) {d : Char} (other : isCoded d = false) :
    c ≠ d := by
  rintro rfl
  rw [coded] at other
  exact nomatch other

theorem escape_of_isCoded (coded : isCoded c = true) :
    escape c = ['\\', 'x', Text.hexDigit (c.toNat / 16), Text.hexDigit (c.toNat % 16)] := by
  unfold escape
  rw [if_neg (ne_of_isCoded coded rfl), if_neg (ne_of_isCoded coded rfl),
    if_neg (ne_of_isCoded coded rfl), if_neg (ne_of_isCoded coded rfl),
    if_neg (ne_of_isCoded coded rfl), if_pos]
  unfold isCoded at coded
  exact (Bool.and_eq_true_iff.mp coded).1

/-- What is not written by its code is written as it is, or by an escape that reading knows. -/
theorem escape_of_not_isCoded (plain : isCoded c = false) :
    (escape c = [c] ∧ c ≠ '\\') ∨ ∃ d, escape c = ['\\', d] ∧ escapedBy? d = some c := by
  by_cases special : c = '"' ∨ c = '\\' ∨ c = '\n' ∨ c = '\r' ∨ c = '\t'
  · right
    rcases special with rfl | rfl | rfl | rfl | rfl <;> exact ⟨_, rfl, rfl⟩
  · left
    simp only [not_or] at special
    obtain ⟨noQuote, noEscape, noLine, noReturn, noTab⟩ := special
    unfold escape
    rw [if_neg noQuote, if_neg noEscape, if_neg noLine, if_neg noReturn, if_neg noTab, if_neg]
    · exact ⟨rfl, noEscape⟩
    · intro control
      simp [isCoded, control, noLine, noReturn, noTab] at plain

theorem resolveEscapes_cons (ordinary : c ≠ '\\') (rest : List Char) :
    resolveEscapes (c :: rest) = c :: resolveEscapes rest := by
  cases rest with
  | nil => rfl
  | cons d rest => rw [resolveEscapes, if_neg ordinary]

theorem resolveEscapes_escape_append (c : Char) (rest : List Char) :
    resolveEscapes (escape c ++ rest) = rereadChar c ++ resolveEscapes rest := by
  unfold rereadChar
  cases coded : isCoded c with
  | true =>
    -- The letter of a code is none that reading knows, and its digits stand for themselves.
    have digit : ∀ {n : Nat}, n < 16 → Text.hexDigit n ≠ '\\' :=
      fun small => (isOrdinary_hexDigit small).2.1
    have small : c.toNat < 0x80 := by
      simp only [isCoded, Bool.and_eq_true, Bool.or_eq_true, decide_eq_true_eq] at coded
      omega
    rw [if_pos rfl, escape_of_isCoded coded]
    show '\\' :: 'x' :: resolveEscapes (Text.hexDigit (c.toNat / 16) ::
      Text.hexDigit (c.toNat % 16) :: rest) = _
    rw [resolveEscapes_cons (digit (by omega)), resolveEscapes_cons (digit (by omega))]
    rfl
  | false =>
    rw [if_neg (by decide)]
    rcases escape_of_not_isCoded coded with ⟨plain, ordinary⟩ | ⟨d, letter, known⟩
    · rw [plain]
      exact resolveEscapes_cons ordinary rest
    · rw [letter]
      show resolveEscapes ('\\' :: d :: rest) = c :: resolveEscapes rest
      rw [resolveEscapes, if_pos rfl, known]

/-! ### Texts -/

theorem resolveEscapes_flatMap_escape (cs : List Char) :
    resolveEscapes (cs.flatMap escape) = cs.flatMap rereadChar := by
  induction cs with
  | nil => rfl
  | cons c cs ih =>
    rw [List.flatMap_cons, List.flatMap_cons, resolveEscapes_escape_append, ih]

/-- There is nothing to trim around a literal. -/
theorem trimWhere_quoteChars (cs : List Char) :
    Text.trimWhere Text.isBlank (quoteChars cs) = quoteChars cs := by
  have front : (quoteChars cs).dropWhile Text.isBlank = quoteChars cs :=
    List.dropWhile_cons_of_neg (by rw [isBlank_delimiter]; decide)
  have back := dropEndWhile_quoteChars_append cs []
  rw [Text.dropEndWhile, List.append_nil] at back
  rw [Text.trimWhere, front, back]

/-- What is read back of a literal. -/
theorem literalText?_quote (s : String) : literalText? (quote s) = some (reread s) := by
  have inside : inside? '"' (quoteChars s.toList) = some (s.toList.flatMap escape) :=
    inside?_delimited '"' _
  unfold literalText? literalChars?
  rw [toList_quote, trimWhere_quoteChars, inside]
  show some (String.ofList (resolveEscapes (s.toList.flatMap escape))) = _
  rw [resolveEscapes_flatMap_escape]
  rfl

theorem flatMap_rereadChar_eq_iff :
    cs.flatMap rereadChar = cs ↔ ∀ c ∈ cs, isCoded c = false := by
  induction cs with
  | nil => exact iff_of_true rfl nofun
  | cons c cs ih =>
    rw [List.flatMap_cons, List.forall_mem_cons, ← ih]
    unfold rereadChar
    cases coded : isCoded c with
    | true =>
      -- A code starts with a backslash, which is not written by its code.
      rw [if_pos rfl, escape_of_isCoded coded]
      refine iff_of_false (fun same => ?_) fun both => nomatch both.1
      exact ne_of_isCoded coded rfl (List.cons.inj same).1.symm
    | false =>
      rw [if_neg (by decide)]
      simp

/-- A text is read back exactly when nothing in it is written by its code. -/
theorem reread_eq_iff {s : String} : reread s = s ↔ ∀ c ∈ s.toList, isCoded c = false := by
  rw [← String.toList_inj, reread, String.toList_ofList, flatMap_rereadChar_eq_iff]

end Blockwork.Source
