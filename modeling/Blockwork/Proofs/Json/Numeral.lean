import Blockwork.Json.Reader
import Blockwork.Json.Writer
import Blockwork.Proofs.Decimal.Digits

/-!
# Numerals read back

A numeral is *proper* when it can be spelled in JSON: digits everywhere, and no zero in front of
other digits. The numerals of numbers are proper (`Numeral.isProper_ofBinary64`), and a proper
numeral is read back from its spelling, up to a character that cannot belong to it
(`Numeral.readNumeral?_write`).
-/

namespace Blockwork

/-- Some digits, with no zero in front of others. -/
def IsWhole (cs : List Char) : Prop :=
  cs = ['0'] ∨ ∃ first rest, cs = first :: rest ∧ first ≠ '0'

theorem IsWhole.of_append {cs : List Char} (behind : List Char) (nonempty : cs ≠ [])
    (start : (cs ++ behind).head? ≠ some '0') : IsWhole cs := by
  cases cs with
  | nil => exact absurd rfl nonempty
  | cons first rest => exact .inr ⟨first, rest, rfl, fun zero => start (zero ▸ rfl)⟩

theorem IsWhole.ne_nil {cs : List Char} (start : IsWhole cs) : cs ≠ [] := by
  rcases start with rfl | ⟨first, rest, rfl, -⟩ <;> exact List.cons_ne_nil _ _

/-! ### Positional notation -/

/-- In front of the point stands a lone zero, or digits that start with none. -/
theorem Decimal.isWhole_positional {d : Decimal} (positive : 0 < d.digits) :
    IsWhole d.positional.1 := by
  have start := head?_digitsOf_ne_zero positive
  unfold positional
  simp only
  split
  · obtain ⟨first, rest, digits⟩ := List.exists_cons_of_ne_nil (digitsOf_ne_nil d.digits)
    rw [digits] at start ⊢
    exact .inr ⟨first, _, rfl, fun zero => start (zero ▸ rfl)⟩
  · split
    · rename_i inside
      refine .of_append
        ((digitsOf d.digits).drop ((digitsOf d.digits).length - (-d.exponent).toNat)) ?_ ?_
      · intro empty
        have := congrArg List.length empty
        rw [List.length_take, List.length_nil] at this
        omega
      · rw [List.take_append_drop]
        exact start
    · exact .inl rfl

namespace Numeral

/-- The numeral can be spelled in JSON. -/
structure IsProper (n : Numeral) : Prop where
  start : IsWhole n.whole
  whole : ∀ c ∈ n.whole, Text.isDigit c = true
  fraction : ∀ c ∈ n.fraction, Text.isDigit c = true

theorem isProper_ofBinary64 (x : Binary64) : (ofBinary64 x).IsProper := by
  unfold ofBinary64
  simp only
  have digits : ∀ c ∈ digitsOf (x.shortest .toEven).digits, Text.isDigit c = true :=
    fun c mem => isDigit_of_mem_digitsOf mem
  split
  · refine ⟨?_, fun c mem => Decimal.isDigit_of_mem_positional (.inl mem), ?_⟩
    · by_cases zero : x.magnitude = 0
      · have none : x.shortest .toEven = ⟨0, 0⟩ := if_pos zero
        rw [none]
        exact .inl rfl
      · exact Decimal.isWhole_positional (Binary64.digits_shortest_pos .toEven zero)
    · intro c mem
      simp only at mem
      split at mem
      · rw [List.mem_singleton.mp mem]
        decide
      · exact Decimal.isDigit_of_mem_positional (.inr mem)
  · rename_i scientific
    have nonzero : x.magnitude ≠ 0 := by
      intro zero
      apply scientific
      rw [Bool.or_eq_true]
      exact .inl (beq_iff_eq.mpr zero)
    have start := head?_digitsOf_ne_zero (Binary64.digits_shortest_pos .toEven nonzero)
    refine ⟨?_, fun c mem => digits c (List.mem_of_mem_take mem),
      fun c mem => digits c (List.mem_of_mem_drop mem)⟩
    refine .of_append ((digitsOf (x.shortest .toEven).digits).drop 1) ?_ ?_
    · intro empty
      rcases List.take_eq_nil_iff.mp empty with impossible | nothing
      · exact absurd impossible (by decide)
      · exact digitsOf_ne_nil _ nothing
    · rw [List.take_append_drop]
      exact start

end Numeral

/-! ### Reading a spelling -/

namespace Json

variable {ds rest : List Char}

/-- The text does not start with a digit. -/
def EndsDigits (rest : List Char) : Prop :=
  ∀ c ∈ rest.head?, Text.isDigit c = false

/-- The text does not start with a character that may stand in a numeral behind a digit. -/
def EndsNumeral (rest : List Char) : Prop :=
  ∀ c ∈ rest.head?, Text.isDigit c = false ∧ c ≠ '.' ∧ c ≠ 'e' ∧ c ≠ 'E'

theorem EndsNumeral.digits (ends : EndsNumeral rest) : EndsDigits rest :=
  fun c mem => (ends c mem).1

theorem endsNumeral_nil : EndsNumeral [] := nofun

theorem takeWhile_isDigit (digits : ∀ c ∈ ds, Text.isDigit c = true) (ends : EndsDigits rest) :
    (ds ++ rest).takeWhile Text.isDigit = ds := by
  rw [List.takeWhile_append_of_pos digits]
  cases rest with
  | nil => rw [List.takeWhile_nil, List.append_nil]
  | cons c cs =>
    have stop := ends c rfl
    rw [List.takeWhile_cons, stop, if_neg (by decide), List.append_nil]

theorem dropWhile_isDigit (digits : ∀ c ∈ ds, Text.isDigit c = true) (ends : EndsDigits rest) :
    (ds ++ rest).dropWhile Text.isDigit = rest := by
  rw [List.dropWhile_append_of_pos digits]
  cases rest with
  | nil => rfl
  | cons c cs =>
    have stop := ends c rfl
    rw [List.dropWhile_cons, stop, if_neg (by decide)]

theorem readWhole?_append (start : IsWhole ds) (digits : ∀ c ∈ ds, Text.isDigit c = true)
    (ends : EndsDigits rest) : readWhole? (ds ++ rest) = some (ds, rest) := by
  rcases start with rfl | ⟨first, others, rfl, nonzero⟩
  · rfl
  · have taken := takeWhile_isDigit digits ends
    have left := dropWhile_isDigit digits ends
    unfold readWhole?
    split
    · rename_i same
      exact absurd (List.cons.inj same).1 nonzero
    · simp only [taken, left]
      rfl

/-- A fraction as it is spelled. -/
def fractionChars (ds : List Char) : List Char :=
  if ds = [] then [] else '.' :: ds

theorem readFraction?_append (digits : ∀ c ∈ ds, Text.isDigit c = true)
    (ends : EndsDigits rest) (pointless : rest.head? ≠ some '.') :
    readFraction? (fractionChars ds ++ rest) = some (ds, rest) := by
  unfold fractionChars
  split
  · rename_i empty
    rw [empty, List.nil_append]
    unfold readFraction?
    split
    · exact absurd rfl pointless
    · rfl
  · rename_i nonempty
    rw [List.cons_append, readFraction?, takeWhile_isDigit digits ends,
      dropWhile_isDigit digits ends]
    exact if_neg nonempty

/-- An exponent as it is spelled. -/
def exponentChars : Option Int → List Char
  | none => []
  | some e => 'e' :: (if e < 0 then '-' else '+') :: digitsOf e.natAbs

theorem readExponent?_append (exponent : Option Int) (ends : EndsNumeral rest) :
    readExponent? (exponentChars exponent ++ rest) = some (exponent, rest) := by
  cases exponent with
  | none =>
    cases rest with
    | nil => rfl
    | cons c cs =>
      obtain ⟨-, -, lower, upper⟩ := ends c rfl
      exact if_neg (not_or.mpr ⟨lower, upper⟩)
  | some e =>
    have digits : ∀ c ∈ digitsOf e.natAbs, Text.isDigit c = true :=
      fun c mem => isDigit_of_mem_digitsOf mem
    have sign : Binary64.splitSign ((if e < 0 then '-' else '+') :: (digitsOf e.natAbs ++ rest)) =
        (decide (e < 0), digitsOf e.natAbs ++ rest) := by
      by_cases negative : e < 0
      · rw [if_pos negative, decide_eq_true negative]
        rfl
      · rw [if_neg negative, decide_eq_false negative]
        rfl
    have size : (if e < 0 then -(e.natAbs : Int) else e.natAbs) = e := by
      split <;> omega
    rw [exponentChars, List.cons_append, List.cons_append, readExponent?, if_pos (.inl rfl), sign]
    simp only [takeWhile_isDigit digits ends.digits, dropWhile_isDigit digits ends.digits,
      digitsValue_digitsOf, if_neg (digitsOf_ne_nil e.natAbs), decide_eq_true_eq, size]

theorem writeNumeral_eq (n : Numeral) :
    writeNumeral n =
      (if n.negative then ['-'] else []) ++
        (n.whole ++ (fractionChars n.fraction ++ exponentChars n.exponent)) := by
  obtain ⟨negative, whole, fraction, exponent⟩ := n
  cases exponent <;> simp only [writeNumeral, fractionChars, exponentChars, List.append_assoc]

theorem head?_exponentChars_append (exponent : Option Int) (ends : EndsNumeral rest) :
    ∀ c ∈ (exponentChars exponent ++ rest).head?, Text.isDigit c = false ∧ c ≠ '.' := by
  cases exponent with
  | none =>
    intro c mem
    exact ⟨(ends c mem).1, (ends c mem).2.1⟩
  | some e =>
    intro c mem
    obtain rfl : 'e' = c := Option.some.inj mem
    exact ⟨by decide, by decide⟩

theorem endsDigits_fractionChars_append (ds : List Char) (ends : EndsDigits rest) :
    EndsDigits (fractionChars ds ++ rest) := by
  unfold fractionChars
  split
  · exact ends
  · intro c mem
    obtain rfl : '.' = c := Option.some.inj mem
    decide

/-- A proper numeral is read back from its spelling. -/
theorem readNumeral?_write {n : Numeral} (proper : n.IsProper) (ends : EndsNumeral rest) :
    readNumeral? (writeNumeral n ++ rest) = some (n, rest) := by
  obtain ⟨negative, whole, fraction, exponent⟩ := n
  have behind := head?_exponentChars_append exponent ends
  have stop : EndsDigits (exponentChars exponent ++ rest) := fun c mem => (behind c mem).1
  have pointless : (exponentChars exponent ++ rest).head? ≠ some '.' :=
    fun point => (behind '.' point).2 rfl
  have unsigned : (whole ++ (fractionChars fraction ++ exponentChars exponent)) ++ rest =
      whole ++ (fractionChars fraction ++ (exponentChars exponent ++ rest)) := by
    rw [List.append_assoc, List.append_assoc]
  have first := readWhole?_append proper.start proper.whole
    (endsDigits_fractionChars_append fraction stop)
  have second := readFraction?_append proper.fraction stop pointless
  have third := readExponent?_append exponent ends
  rw [writeNumeral_eq, List.append_assoc, unsigned]
  cases negative with
  | true =>
    unfold readNumeral?
    simp only [if_true, List.singleton_append, first, second, third, Option.bind_eq_bind,
      Option.bind_some]
  | false =>
    -- The spelling starts with a digit, so the match on the sign passes it by.
    have signless : ∀ behind, whole ++ (fractionChars fraction ++
        (exponentChars exponent ++ rest)) ≠ '-' :: behind := by
      intro behind same
      obtain ⟨c, cs, starts⟩ := List.exists_cons_of_ne_nil proper.start.ne_nil
      have digit : Text.isDigit c = true := proper.whole c (starts ▸ List.mem_cons_self)
      rw [show whole = c :: cs from starts, List.cons_append] at same
      rw [(List.cons.inj same).1] at digit
      exact absurd digit (by decide)
    unfold readNumeral?
    simp only [Bool.false_eq_true, if_false, List.nil_append, first, second, third,
      Option.bind_eq_bind, Option.bind_some]

end Json

end Blockwork
