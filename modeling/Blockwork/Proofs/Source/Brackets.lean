import Blockwork.Proofs.Source.Twins
import Blockwork.Proofs.Text.Pieces

/-!
# Brackets outside of literals

Brackets are read with a stack of those that are open. `Nests` says how a piece of code changes
this stack when it is made of plain characters and interpreted literals only, whatever the
literals say. Pieces are put together where one leaves the stack that the next one finds
(`Nests.append`), and indentation changes nothing (`Nests.indentChars`). A text that leaves every
stack as it is is nested (`IsNested`).
-/

namespace Blockwork.Source

/-- The brackets of the language. -/
def isBracket (c : Char) : Bool :=
  ['(', ')', '[', ']', '{', '}'].contains c

/-- The bracket that a bracket closes. -/
def closes? (c : Char) : Option Char :=
  if c = ')' then some '('
  else if c = ']' then some '['
  else if c = '}' then some '{'
  else none

/-- The brackets that are open behind a character, the innermost one first. A bracket closes
nothing but the innermost one. -/
def bracket? (opened : List Char) (c : Char) : Option (List Char) :=
  if isBracket c then
    match closes? c with
    | none => some (c :: opened)
    | some partner => if opened.head? = some partner then some opened.tail else none
  else some opened

/-- The brackets that are open behind characters. -/
def brackets? (opened : List Char) (cs : List Char) : Option (List Char) :=
  cs.foldlM bracket? opened

/-- Brackets are closed in the order in which they must be, and all of them. Other characters do
not matter. -/
def Balanced (cs : List Char) : Prop :=
  brackets? [] cs = some []

instance (cs : List Char) : Decidable (Balanced cs) :=
  inferInstanceAs (Decidable (_ = _))

variable {c : Char} {cs ds line opened mid last : List Char}

/-! ### Stacks -/

/-- A class without the six brackets has no bracket. -/
theorem not_isBracket_of_class {p : Char → Bool} (inside : p c = true)
    (outside : (['(', ')', '[', ']', '{', '}'].all fun b => !p b) = true) :
    isBracket c = false := by
  cases bracket : isBracket c with
  | false => rfl
  | true =>
    have out := List.all_eq_true.mp outside c (List.contains_iff_mem.mp bracket)
    rw [inside] at out
    exact absurd out (by decide)

theorem bracket?_of_not_isBracket (other : isBracket c = false) :
    bracket? opened c = some opened := by
  unfold bracket?
  rw [other, if_neg Bool.false_ne_true]

theorem brackets?_cons : brackets? opened (c :: cs) = (bracket? opened c).bind (brackets? · cs) :=
  List.foldlM_cons

theorem brackets?_append (first : brackets? opened cs = some mid) :
    brackets? opened (cs ++ ds) = brackets? mid ds := by
  unfold brackets? at first ⊢
  rw [List.foldlM_append, first]
  rfl

/-- Brackets that are open further outside stay as they are. -/
theorem bracket?_outside (here : bracket? opened c = some last) (outside : List Char) :
    bracket? (opened ++ outside) c = some (last ++ outside) := by
  unfold bracket? at here ⊢
  by_cases bracket : isBracket c = true
  · rw [if_pos bracket] at here ⊢
    cases closing : closes? c with
    | none =>
      rw [closing] at here
      obtain rfl := Option.some.inj here
      rfl
    | some partner =>
      rw [closing] at here
      simp only at here ⊢
      cases opened with
      | nil => exact nomatch here
      | cons first rest =>
        rw [List.head?_cons, List.tail_cons] at here
        rw [List.cons_append, List.head?_cons, List.tail_cons]
        split at here
        · rename_i innermost
          obtain rfl := Option.some.inj here
          exact if_pos innermost
        · exact nomatch here
  · rw [if_neg bracket] at here ⊢
    obtain rfl := Option.some.inj here
    rfl

theorem brackets?_outside (here : brackets? opened cs = some last) (outside : List Char) :
    brackets? (opened ++ outside) cs = some (last ++ outside) := by
  induction cs generalizing opened with
  | nil =>
    obtain rfl := Option.some.inj here
    rfl
  | cons c rest ih =>
    rw [brackets?_cons] at here ⊢
    obtain ⟨next, first, later⟩ := Option.bind_eq_some_iff.mp here
    rw [bracket?_outside first, Option.bind_some]
    exact ih later

/-- Only the brackets among the characters matter. -/
theorem brackets?_filter : brackets? opened (cs.filter isBracket) = brackets? opened cs := by
  induction cs generalizing opened with
  | nil => rfl
  | cons c rest ih =>
    cases bracket : isBracket c with
    | true =>
      rw [List.filter_cons_of_pos bracket, brackets?_cons, brackets?_cons]
      exact congrArg _ (funext fun _ => ih)
    | false =>
      rw [List.filter_cons_of_neg (Bool.eq_false_iff.mp bracket), ih, brackets?_cons,
        bracket?_of_not_isBracket bracket, Option.bind_some]

/-- The brackets of a text are those that it has without the blanks around it. -/
theorem filter_isBracket_trim (cs : List Char) :
    (Text.trimWhere Text.isBlank cs).filter isBracket = cs.filter isBracket := by
  have blank : ∀ {c}, Text.isBlank c = true → isBracket c = false :=
    fun blank => not_isBracket_of_class blank (by decide)
  have front : ∀ cs : List Char,
      (cs.dropWhile Text.isBlank).filter isBracket = cs.filter isBracket := by
    intro cs
    induction cs with
    | nil => rfl
    | cons c rest ih =>
      rw [List.dropWhile_cons]
      split
      · rename_i dropped
        rw [ih, List.filter_cons_of_neg (Bool.eq_false_iff.mp (blank dropped))]
      · rfl
  have behind : ∀ cs : List Char,
      (Text.dropEndWhile Text.isBlank cs).filter isBracket = cs.filter isBracket := by
    intro cs
    induction cs with
    | nil => rfl
    | cons c rest ih =>
      have here : (Text.dropEndWhile Text.isBlank (c :: rest)).filter isBracket =
          (c :: Text.dropEndWhile Text.isBlank rest).filter isBracket := by
        rw [Text.dropEndWhile]
        split
        · rename_i nothing
          rw [nothing]
          split
          · rename_i dropped
            rw [List.filter_cons_of_neg (Bool.eq_false_iff.mp (blank dropped))]
          · rfl
        · rfl
      rw [here, List.filter_cons, List.filter_cons, ih]
  unfold Text.trimWhere
  rw [behind, front]

/-! ### Pieces of code -/

/-- Read from the stack `opened`, the characters lead to the stack `last`. They are plain
characters and interpreted literals. -/
inductive Nests : List Char → List Char → List Char → Prop where
  | nil (opened : List Char) : Nests opened [] opened
  | plain {c : Char} {opened next cs last : List Char} (isPlain : IsPlain c)
    (here : bracket? opened c = some next) (rest : Nests next cs last) :
    Nests opened (c :: cs) last
  | literal (s : List Char) {opened cs last : List Char} (rest : Nests opened cs last) :
    Nests opened (quoteChars s ++ cs) last

namespace Nests

theorem append (first : Nests opened cs mid) (second : Nests mid ds last) :
    Nests opened (cs ++ ds) last := by
  induction first with
  | nil => exact second
  | plain isPlain here _ ih => exact plain isPlain here (ih second)
  | literal s _ ih =>
    rw [List.append_assoc]
    exact literal s (ih second)

theorem quote (s : List Char) : Nests opened (quoteChars s) opened := by
  have literal := literal s (nil opened)
  rwa [List.append_nil] at literal

theorem of_plain (all : ∀ c ∈ cs, IsPlain c) (here : brackets? opened cs = some last) :
    Nests opened cs last := by
  induction cs generalizing opened with
  | nil =>
    obtain rfl := Option.some.inj here
    exact nil opened
  | cons c rest ih =>
    rw [brackets?_cons] at here
    obtain ⟨next, first, later⟩ := Option.bind_eq_some_iff.mp here
    exact plain (all c List.mem_cons_self) first
      (ih (fun d mem => all d (List.mem_cons_of_mem _ mem)) later)

/-- Plain characters without brackets leave the stack as it is. -/
theorem of_no_bracket (all : ∀ c ∈ cs, IsPlain c ∧ isBracket c = false) :
    Nests opened cs opened := by
  induction cs with
  | nil => exact nil opened
  | cons c rest ih =>
    obtain ⟨isPlain, other⟩ := all c List.mem_cons_self
    exact plain isPlain (bracket?_of_not_isBracket other)
      (ih fun d mem => all d (List.mem_cons_of_mem _ mem))

theorem twins (nests : Nests opened cs last) : TwinChars cs cs := by
  induction nests with
  | nil => exact .nil
  | plain isPlain _ _ ih => exact .plain isPlain ih
  | literal s _ ih => exact .literal s s ih

/-! ### Indentation -/

/-- The line that has begun and what follows are indented without a change of the stack. -/
theorem indentChars_behind {indentation : List Char}
    (spaces : ∀ c ∈ indentation, IsPlain c ∧ isBracket c = false) (nests : Nests mid cs last)
    (begun : Nests opened line mid) (unbroken : '\n' ∉ line) :
    Nests opened (Text.indentChars indentation (line ++ cs)) last := by
  have indented : ∀ {opened line mid : List Char}, Nests opened line mid →
      Nests opened (Text.indentLine indentation line) mid := by
    intro opened line mid begun
    unfold Text.indentLine
    split
    · exact begun
    · exact (of_no_bracket spaces).append begun
  induction nests generalizing opened line with
  | nil =>
    rw [List.append_nil, Text.indentChars_of_line unbroken]
    exact indented begun
  | @plain c mid next cs last isPlain here rest ih =>
    by_cases newline : c = '\n'
    · subst newline
      rw [Text.indentChars_line unbroken]
      exact (indented begun).append (plain isPlain here (ih (nil _) List.not_mem_nil))
    · have still : '\n' ∉ line ++ [c] := by simp [unbroken, Ne.symm newline]
      have longer := ih (begun.append (plain isPlain here (nil _))) still
      rwa [List.append_assoc] at longer
  | literal s _ ih =>
    have still : '\n' ∉ line ++ quoteChars s := by
      simp [unbroken, newline_not_mem_quoteChars]
    have longer := ih (begun.append (quote s)) still
    rwa [List.append_assoc] at longer

theorem indentChars {indentation : List Char}
    (spaces : ∀ c ∈ indentation, IsPlain c ∧ isBracket c = false) (nests : Nests opened cs last) :
    Nests opened (Text.indentChars indentation cs) last :=
  indentChars_behind spaces nests (nil opened) List.not_mem_nil

end Nests

/-! ### Texts -/

/-- Read from the stack `opened`, the text leads to the stack `last`. -/
def Leads (opened : List Char) (code : String) (last : List Char) : Prop :=
  Nests opened code.toList last

namespace Leads

variable {code other : String}

theorem append (first : Leads opened code mid) (second : Leads mid other last) :
    Leads opened (code ++ other) last := by
  unfold Leads
  rw [String.toList_append]
  exact Nests.append first second

/-- A fixed text, which closes the brackets `before` and leaves `after` open. -/
theorem fixed (before after : List Char) (letters : code = String.ofList cs)
    (tested : (cs.all fun c => decide (IsPlain c)) = true ∧ brackets? before cs = some after) :
    Leads (before ++ opened) code (after ++ opened) := by
  obtain ⟨all, here⟩ := tested
  unfold Leads
  rw [letters, String.toList_ofList]
  exact Nests.of_plain (Text.forall_mem_of_all all) (brackets?_outside here opened)

end Leads

/-- The text leaves every stack as it is. -/
def IsNested (code : String) : Prop :=
  ∀ opened, Leads opened code opened

namespace IsNested

variable {code other : String}

theorem empty : IsNested "" := Nests.nil

theorem append (first : IsNested code) (second : IsNested other) : IsNested (code ++ other) :=
  fun opened => (first opened).append (second opened)

theorem quote (text : String) : IsNested (Source.quote text) := by
  intro opened
  unfold Leads
  rw [toList_quote]
  exact Nests.quote text.toList

theorem of_no_bracket (all : ∀ c ∈ code.toList, IsPlain c ∧ isBracket c = false) :
    IsNested code :=
  fun _ => Nests.of_no_bracket all

theorem of_plain (all : ∀ c ∈ code.toList, IsPlain c) (balanced : Balanced code.toList) :
    IsNested code :=
  fun opened => Nests.of_plain all (brackets?_outside balanced opened)

/-- A fixed text of plain characters in which every bracket is closed. -/
theorem fixed (letters : code = String.ofList cs)
    (tested : (cs.all fun c => decide (IsPlain c)) = true ∧ Balanced cs) : IsNested code :=
  fun _ => .fixed [] [] letters tested

/-- What is nested stays so between a text that opens a bracket and one that closes it. -/
theorem between (bracket : Char) {front rest : String} {fs rs : List Char} (body : IsNested code)
    (fronts : front = String.ofList fs) (rests : rest = String.ofList rs)
    (tested : ((fs ++ rs).all fun c => decide (IsPlain c)) = true ∧
      brackets? [] fs = some [bracket] ∧ brackets? [bracket] rs = some []) :
    IsNested (front ++ code ++ rest) := by
  obtain ⟨all, opening, closing⟩ := tested
  rw [List.all_append, Bool.and_eq_true] at all
  intro opened
  have opens : Leads ([] ++ opened) front ([bracket] ++ opened) :=
    .fixed [] [bracket] fronts ⟨all.1, opening⟩
  have closes : Leads ([bracket] ++ opened) rest ([] ++ opened) :=
    .fixed [bracket] [] rests ⟨all.2, closing⟩
  exact (opens.append (body _)).append closes

/-- A fixed text with one literal in it, each part by its characters. -/
theorem fixed_around (front inside rest : String) {fs is rs : List Char}
    (letters : code = String.ofList cs) (fronts : front = String.ofList fs)
    (insides : inside = String.ofList is) (rests : rest = String.ofList rs)
    (tested : cs = fs ++ quoteChars is ++ rs ∧
      ((fs ++ rs).all fun c => decide (IsPlain c)) = true ∧ Balanced (fs ++ rs)) :
    IsNested code := by
  obtain ⟨parts, all, balanced⟩ := tested
  intro opened
  rw [List.all_append, Bool.and_eq_true] at all
  -- What the front leaves open is closed behind the literal.
  obtain ⟨mid, opening, closing⟩ : ∃ mid, brackets? [] fs = some mid ∧
      brackets? mid rs = some [] := by
    unfold Balanced brackets? at balanced
    rw [List.foldlM_append] at balanced
    exact Option.bind_eq_some_iff.mp balanced
  have opens : Leads ([] ++ opened) front (mid ++ opened) :=
    .fixed [] mid fronts ⟨all.1, opening⟩
  have closes : Leads (mid ++ opened) rest ([] ++ opened) :=
    .fixed mid [] rests ⟨all.2, closing⟩
  rw [around_eq letters fronts insides rests parts]
  exact (opens.append (quote inside _)).append closes

theorem spaces (blank : ∀ c ∈ code.toList, c = ' ' ∨ c = '\t') : IsNested code := by
  refine of_no_bracket ?_
  intro c mem
  rcases blank c mem with rfl | rfl <;> decide

/-- The blanks around a text have no brackets. -/
theorem trim_of_plain (all : ∀ c ∈ code.toList, IsPlain c) (balanced : Balanced code.toList) :
    IsNested (Text.trim code) := by
  refine of_plain (fun c mem => all c ?_) ?_
  · rw [Text.toList_trim] at mem
    exact Text.mem_of_mem_trimWhere mem
  · unfold Balanced at balanced ⊢
    rw [Text.toList_trim, ← brackets?_filter, filter_isBracket_trim, brackets?_filter, balanced]

theorem twins (nested : IsNested code) : Twins code code :=
  (nested []).twins

theorem requote (nested : IsNested code) : IsNested (Source.requote code) := by
  rw [nested.twins.requote_eq]
  exact nested

theorem indent {indentation : String} (spaces : ∀ c ∈ indentation.toList, c = ' ' ∨ c = '\t')
    (nested : IsNested code) : IsNested (Text.indent indentation code) := by
  intro opened
  unfold Leads
  rw [Text.toList_indent_eq]
  refine Nests.indentChars ?_ (nested opened)
  intro c mem
  rcases spaces c mem with rfl | rfl <;> decide

theorem joinWith {texts : List String} {sep : String} (all : ∀ text ∈ texts, IsNested text)
    (fixed : IsNested sep) : IsNested (Text.joinWith sep texts) := by
  induction texts with
  | nil => exact .empty
  | cons first rest ih =>
    have here := all first List.mem_cons_self
    have there := ih fun text mem => all text (List.mem_cons_of_mem _ mem)
    cases rest with
    | nil => exact here
    | cons second more => exact (here.append fixed).append there

end IsNested

end Blockwork.Source
