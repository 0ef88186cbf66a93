import Blockwork.Proofs.Source.Literals
import Blockwork.Proofs.Text.Classes
import Blockwork.Proofs.Text.Lines
import Blockwork.Proofs.Text.Pieces

/-!
# Texts that differ in literals only

Two pieces of code are `Twins` when they are made of the same characters and differ only in what
their interpreted literals say. Outside of these literals they have neither quotes nor slashes,
so that nothing else can open a literal or a comment.

* **putting code together** — `Twins.append`, `Twins.indent`: twins put together and indented are
  twins, because a literal is one part of one line, whatever it says;
* **tests on code** — `Twins.isEmpty_eq`, `Twins.isSome_literalText?`, `Twins.requote_eq`: what
  generators ask about code has the same answer for both twins.
-/

namespace Blockwork.Source

/-- A character that can open neither a literal nor a comment. -/
def IsPlain (c : Char) : Prop :=
  c ≠ '"' ∧ c ≠ '\x27' ∧ c ≠ '\x60' ∧ c ≠ '/'

instance (c : Char) : Decidable (IsPlain c) :=
  inferInstanceAs (Decidable (_ ∧ _ ∧ _ ∧ _))

/-- The same plain characters in the same places, and literals in the same places. -/
inductive TwinChars : List Char → List Char → Prop where
  | nil : TwinChars [] []
  | plain {c : Char} {cs ds : List Char} (isPlain : IsPlain c) (rest : TwinChars cs ds) :
    TwinChars (c :: cs) (c :: ds)
  | literal (s t : List Char) {cs ds : List Char} (rest : TwinChars cs ds) :
    TwinChars (quoteChars s ++ cs) (quoteChars t ++ ds)

variable {c : Char} {s cs ds es fs line : List Char}

theorem isBlank_delimiter : Text.isBlank '"' = false := by decide

theorem getLast?_quoteChars_append (s cs : List Char) :
    (quoteChars s ++ cs).getLast? = some (cs.getLast?.getD '"') := by
  rw [List.getLast?_append]
  unfold quoteChars
  rw [List.getLast?_cons, List.getLast?_append]
  cases cs.getLast? <;> rfl

theorem dropEndWhile_quoteChars_append (s cs : List Char) :
    Text.dropEndWhile Text.isBlank (quoteChars s ++ cs) =
      quoteChars s ++ Text.dropEndWhile Text.isBlank cs := by
  -- The closing delimiter is not blank, so nothing in front of it is dropped.
  have closing : Text.dropEndWhile Text.isBlank ('"' :: cs) =
      '"' :: Text.dropEndWhile Text.isBlank cs := by
    rw [Text.dropEndWhile, isBlank_delimiter]
    cases Text.dropEndWhile Text.isBlank cs <;> rfl
  have kept : Text.dropEndWhile Text.isBlank ('"' :: cs) ≠ [] :=
    closing ▸ List.cons_ne_nil _ _
  have parts := Text.dropEndWhile_append kept ('"' :: s.flatMap escape)
  rw [closing] at parts
  unfold quoteChars
  simp only [List.cons_append, List.append_assoc, List.nil_append] at parts ⊢
  exact parts

namespace TwinChars

/-! ### Putting characters together -/

theorem of_plain (all : ∀ c ∈ cs, IsPlain c) : TwinChars cs cs := by
  induction cs with
  | nil => exact nil
  | cons c rest ih =>
    refine plain (all c List.mem_cons_self) (ih fun d mem => ?_)
    exact all d (List.mem_cons_of_mem _ mem)

theorem quote (s t : List Char) : TwinChars (quoteChars s) (quoteChars t) := by
  have literal := literal s t nil
  rwa [List.append_nil, List.append_nil] at literal

theorem append (first : TwinChars cs ds) (second : TwinChars es fs) :
    TwinChars (cs ++ es) (ds ++ fs) := by
  induction first with
  | nil => exact second
  | plain isPlain _ ih => exact plain isPlain ih
  | literal s t _ ih =>
    rw [List.append_assoc, List.append_assoc]
    exact literal s t ih

theorem symm (twins : TwinChars cs ds) : TwinChars ds cs := by
  induction twins with
  | nil => exact nil
  | plain isPlain _ ih => exact plain isPlain ih
  | literal s t _ ih => exact literal t s ih

/-! ### Tests -/

theorem isEmpty_eq (twins : TwinChars cs ds) : cs.isEmpty = ds.isEmpty := by
  cases twins <;> rfl

theorem all_isBlank (twins : TwinChars cs ds) :
    cs.all Text.isBlank = ds.all Text.isBlank := by
  induction twins with
  | nil => rfl
  | plain _ _ ih => rw [List.all_cons, List.all_cons, ih]
  | literal s t _ _ =>
    unfold quoteChars
    rw [List.cons_append, List.cons_append, List.all_cons, List.all_cons, isBlank_delimiter,
      Bool.false_and, Bool.false_and]

theorem getLast?_eq (twins : TwinChars cs ds) : cs.getLast? = ds.getLast? := by
  induction twins with
  | nil => rfl
  | plain _ _ ih => rw [List.getLast?_cons, List.getLast?_cons, ih]
  | literal s t _ ih =>
    rw [getLast?_quoteChars_append, getLast?_quoteChars_append, ih]

/-- Nothing but an interpreted literal stands at the front of twins. -/
theorem inside?_eq_none (twins : TwinChars cs ds) (delimiter : Char)
    (special : ¬ IsPlain delimiter) (other : delimiter ≠ '"') : inside? delimiter cs = none := by
  cases twins with
  | nil => rfl
  | plain isPlain _ =>
    rw [inside?, if_neg]
    rintro ⟨rfl, -⟩
    exact special isPlain
  | literal s t _ =>
    unfold quoteChars
    rw [List.cons_append, inside?, if_neg]
    rintro ⟨same, -⟩
    exact other same.symm

theorem isSome_inside? (twins : TwinChars cs ds) :
    (inside? '"' cs).isSome = (inside? '"' ds).isSome := by
  have behind : ∀ s cs : List Char, (inside? '"' (quoteChars s ++ cs)).isSome =
      decide (cs.getLast?.getD '"' = '"') := by
    intro s cs
    have last : (s.flatMap escape ++ ['"'] ++ cs).getLast? = some (cs.getLast?.getD '"') := by
      rw [List.getLast?_append, List.getLast?_append]
      cases cs.getLast? <;> rfl
    unfold quoteChars
    rw [List.cons_append, inside?, last]
    by_cases closed : cs.getLast?.getD '"' = '"'
    · rw [if_pos ⟨rfl, congrArg some closed⟩, decide_eq_true closed]
      rfl
    · rw [if_neg fun both => closed (Option.some.inj both.2), decide_eq_false closed]
      rfl
  cases twins with
  | nil => rfl
  | plain isPlain _ =>
    rw [inside?, inside?, if_neg fun both => isPlain.1 both.1,
      if_neg fun both => isPlain.1 both.1]
  | literal s t rest => rw [behind, behind, rest.getLast?_eq]

/-- Of twins either both are literals or none is. -/
theorem isSome_literalChars? (twins : TwinChars cs ds) :
    (literalChars? cs).isSome = (literalChars? ds).isSome := by
  have reads : ∀ {cs ds : List Char}, TwinChars cs ds →
      (literalChars? cs).isSome = (inside? '"' cs).isSome := by
    intro cs ds twins
    unfold literalChars?
    rw [twins.inside?_eq_none '\x60' (by decide) (by decide),
      twins.inside?_eq_none '\x27' (by decide) (by decide)]
    cases inside? '"' cs <;> rfl
  rw [reads twins, reads twins.symm, twins.isSome_inside?]

/-! ### Blanks at the ends -/

theorem dropWhile_isBlank (twins : TwinChars cs ds) :
    TwinChars (cs.dropWhile Text.isBlank) (ds.dropWhile Text.isBlank) := by
  induction twins with
  | nil => exact nil
  | @plain c cs ds isPlain rest ih =>
    rw [List.dropWhile_cons, List.dropWhile_cons]
    split
    · exact ih
    · exact plain isPlain rest
  | literal s t rest _ =>
    have stays : ∀ s cs : List Char,
        (quoteChars s ++ cs).dropWhile Text.isBlank = quoteChars s ++ cs := by
      intro s cs
      unfold quoteChars
      rw [List.cons_append, List.dropWhile_cons, if_neg (by decide)]
    rw [stays, stays]
    exact literal s t rest

theorem dropEndWhile_isBlank (twins : TwinChars cs ds) :
    TwinChars (Text.dropEndWhile Text.isBlank cs) (Text.dropEndWhile Text.isBlank ds) := by
  induction twins with
  | nil => exact nil
  | @plain c cs ds isPlain rest ih =>
    rw [Text.dropEndWhile, Text.dropEndWhile]
    generalize Text.dropEndWhile Text.isBlank cs = left at ih
    generalize Text.dropEndWhile Text.isBlank ds = right at ih
    cases ih with
    | nil =>
      simp only
      split
      · exact nil
      · exact plain isPlain nil
    | plain isPlain' kept => exact plain isPlain (plain isPlain' kept)
    | literal s t kept => exact plain isPlain (literal s t kept)
  | literal s t rest ih =>
    rw [dropEndWhile_quoteChars_append, dropEndWhile_quoteChars_append]
    exact literal s t ih

theorem trim (twins : TwinChars cs ds) :
    TwinChars (Text.trimWhere Text.isBlank cs) (Text.trimWhere Text.isBlank ds) :=
  twins.dropWhile_isBlank.dropEndWhile_isBlank

/-! ### Indentation -/

/-- Twins behind a line that has begun: the line and what follows are indented alike. -/
theorem indentChars_behind {indentation : List Char} (spaces : ∀ c ∈ indentation, IsPlain c)
    (twins : TwinChars cs ds) (line : TwinChars es fs) (unbroken : '\n' ∉ es)
    (unbroken' : '\n' ∉ fs) :
    TwinChars (Text.indentChars indentation (es ++ cs))
      (Text.indentChars indentation (fs ++ ds)) := by
  have indented : ∀ {es fs : List Char}, TwinChars es fs →
      TwinChars (Text.indentLine indentation es) (Text.indentLine indentation fs) := by
    intro es fs line
    unfold Text.indentLine
    rw [line.all_isBlank]
    split
    · exact line
    · exact (of_plain spaces).append line
  induction twins generalizing es fs with
  | nil =>
    rw [List.append_nil, List.append_nil, Text.indentChars_of_line unbroken,
      Text.indentChars_of_line unbroken']
    exact indented line
  | @plain c cs ds isPlain _ ih =>
    by_cases newline : c = '\n'
    · subst newline
      rw [Text.indentChars_line unbroken, Text.indentChars_line unbroken']
      exact (indented line).append (plain isPlain (ih nil List.not_mem_nil List.not_mem_nil))
    · have still : '\n' ∉ es ++ [c] := by simp [unbroken, Ne.symm newline]
      have still' : '\n' ∉ fs ++ [c] := by simp [unbroken', Ne.symm newline]
      have longer := ih (line.append (plain isPlain nil)) still still'
      rwa [List.append_assoc, List.append_assoc] at longer
  | literal s t _ ih =>
    have still : '\n' ∉ es ++ quoteChars s := by
      simp [unbroken, newline_not_mem_quoteChars]
    have still' : '\n' ∉ fs ++ quoteChars t := by
      simp [unbroken', newline_not_mem_quoteChars]
    have longer := ih (line.append (quote s t)) still still'
    rwa [List.append_assoc, List.append_assoc] at longer

theorem indentChars {indentation : List Char} (spaces : ∀ c ∈ indentation, IsPlain c)
    (twins : TwinChars cs ds) :
    TwinChars (Text.indentChars indentation cs) (Text.indentChars indentation ds) :=
  indentChars_behind spaces twins nil List.not_mem_nil List.not_mem_nil

end TwinChars

/-! ### Texts -/

/-- A text is made of parts when its characters are made of theirs. -/
theorem around_eq {code front inside rest : String} {cs fs is rs : List Char}
    (letters : code = String.ofList cs) (fronts : front = String.ofList fs)
    (insides : inside = String.ofList is) (rests : rest = String.ofList rs)
    (parts : cs = fs ++ quoteChars is ++ rs) : code = front ++ quote inside ++ rest := by
  rw [letters, parts, fronts, insides, rests, quote, String.toList_ofList,
    String.ofList_append, String.ofList_append]

/-- The characters of the texts are twins. -/
def Twins (code code' : String) : Prop :=
  TwinChars code.toList code'.toList

namespace Twins

variable {code code' other other' : String}

theorem empty : Twins "" "" := TwinChars.nil

theorem of_plain (all : ∀ c ∈ code.toList, IsPlain c) : Twins code code :=
  TwinChars.of_plain all

/-- A fixed text of plain characters. -/
theorem fixed {cs : List Char} (letters : code = String.ofList cs)
    (all : (cs.all fun c => decide (IsPlain c)) = true) : Twins code code := by
  refine of_plain ?_
  rw [letters, String.toList_ofList]
  exact Text.forall_mem_of_all all

theorem quote (s t : String) : Twins (Source.quote s) (Source.quote t) := by
  unfold Twins
  rw [toList_quote, toList_quote]
  exact TwinChars.quote _ _

theorem append (first : Twins code code') (second : Twins other other') :
    Twins (code ++ other) (code' ++ other') := by
  unfold Twins
  rw [String.toList_append, String.toList_append]
  exact TwinChars.append first second

theorem spaces (blank : ∀ c ∈ code.toList, c = ' ' ∨ c = '\t') : Twins code code := by
  refine of_plain ?_
  intro c mem
  rcases blank c mem with rfl | rfl <;> decide

/-- A fixed text with one literal in it. -/
theorem fixed_around (front inside rest : String) {cs fs is rs : List Char}
    (letters : code = String.ofList cs) (fronts : front = String.ofList fs)
    (insides : inside = String.ofList is) (rests : rest = String.ofList rs)
    (tested : cs = fs ++ quoteChars is ++ rs ∧
      ((fs ++ rs).all fun c => decide (IsPlain c)) = true) : Twins code code := by
  obtain ⟨parts, all⟩ := tested
  rw [List.all_append, Bool.and_eq_true] at all
  rw [around_eq letters fronts insides rests parts]
  exact ((fixed fronts all.1).append (quote _ _)).append (fixed rests all.2)

theorem isEmpty_eq (twins : Twins code code') : code.isEmpty = code'.isEmpty := by
  have empty := TwinChars.isEmpty_eq twins
  rw [Bool.eq_iff_iff] at empty ⊢
  simpa using empty

theorem indent {indentation : String} (spaces : ∀ c ∈ indentation.toList, IsPlain c)
    (twins : Twins code code') :
    Twins (Text.indent indentation code) (Text.indent indentation code') := by
  unfold Twins
  rw [Text.toList_indent_eq, Text.toList_indent_eq]
  exact TwinChars.indentChars spaces twins

theorem trim (twins : Twins code code') : Twins (Text.trim code) (Text.trim code') := by
  unfold Twins
  rw [Text.toList_trim, Text.toList_trim]
  exact TwinChars.trim twins

theorem isSome_literalText? (twins : Twins code code') :
    (literalText? code).isSome = (literalText? code').isSome := by
  unfold literalText?
  rw [Option.isSome_map, Option.isSome_map]
  exact (TwinChars.trim twins).isSome_literalChars?

/-- Twins are not between single quotes, so there is nothing to rewrite. -/
theorem requote_eq (twins : Twins code code') : requote code = code := by
  unfold requote
  rw [TwinChars.inside?_eq_none twins '\x27' (by decide) (by decide)]

theorem symm (twins : Twins code code') : Twins code' code :=
  TwinChars.symm twins

end Twins

end Blockwork.Source
