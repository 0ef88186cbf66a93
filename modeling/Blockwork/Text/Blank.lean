/-!
# Blank characters and trimming

`isBlank` is the Unicode property White_Space. Trimming removes a run of
characters from one end or both ends of a text: `dropEndWhile` leaves a prefix of
the text, `List.dropWhile` a suffix, and `trimWhere` does both.
-/

namespace Blockwork.Text

/-- A character of the Unicode property White_Space. -/
def isBlank (c : Char) : Bool :=
  let n := c.toNat
  (9 ≤ n && n ≤ 13) || n == 0x20 || n == 0x85 || n == 0xA0 || n == 0x1680 ||
  (0x2000 ≤ n && n ≤ 0x200A) || n == 0x2028 || n == 0x2029 || n == 0x202F ||
  n == 0x205F || n == 0x3000

/-- Without the longest run at the end whose characters all satisfy `p`. -/
def dropEndWhile (p : Char → Bool) : List Char → List Char
  | [] => []
  | c :: rest =>
    match dropEndWhile p rest with
    | [] => if p c then [] else [c]
    | kept => c :: kept

/-- Without the runs at both ends whose characters all satisfy `p`. -/
def trimWhere (p : Char → Bool) (cs : List Char) : List Char :=
  dropEndWhile p (cs.dropWhile p)

/-- A text without the blanks at its two ends. -/
def trim (s : String) : String :=
  String.ofList (trimWhere isBlank s.toList)

/-- Whether a text holds nothing but blanks. -/
def isBlankText (s : String) : Bool :=
  s.toList.all isBlank

/-! ### Trimming -/

theorem dropEndWhile_eq_nil_iff {p : Char → Bool} {cs : List Char} :
    dropEndWhile p cs = [] ↔ cs.all p = true := by
  induction cs with
  | nil => simp [dropEndWhile]
  | cons c rest ih =>
    rw [dropEndWhile, List.all_cons]
    cases h : dropEndWhile p rest with
    | nil => cases hp : p c <;> simp [ih.1 h]
    | cons d ds =>
      have : rest.all p ≠ true := fun all => by simp [ih.2 all] at h
      cases hr : rest.all p <;> simp_all

/-- Trimming an end takes nothing away but a run of trimmed characters. -/
theorem dropEndWhile_append_run (p : Char → Bool) (cs : List Char) :
    ∃ run : List Char, run.all p = true ∧ dropEndWhile p cs ++ run = cs := by
  induction cs with
  | nil => exact ⟨[], rfl, rfl⟩
  | cons c rest ih =>
    obtain ⟨run, hrun, happ⟩ := ih
    rw [dropEndWhile]
    cases h : dropEndWhile p rest with
    | nil =>
      have all : rest.all p = true := dropEndWhile_eq_nil_iff.1 h
      cases hp : p c
      · exact ⟨rest, all, by simp⟩
      · exact ⟨c :: rest, by simp [hp, all], by simp⟩
    | cons d ds => exact ⟨run, hrun, by rw [h] at happ; simp [happ]⟩

/-- What is left after trimming starts with a character that stays, if anything is left. -/
theorem all_trimWhere {p : Char → Bool} {cs : List Char} :
    (trimWhere p cs).all p = true ↔ trimWhere p cs = [] := by
  constructor
  · intro all
    unfold trimWhere at all ⊢
    cases start : cs.dropWhile p with
    | nil => rfl
    | cons c rest =>
      have stays : ¬ p c = true := by
        have first := List.head?_dropWhile_not p cs
        rw [start] at first
        simpa using first
      obtain ⟨run, trimmed, whole⟩ := dropEndWhile_append_run p (c :: rest)
      rw [start] at all
      have everything : (c :: rest).all p = true := by
        rw [← whole, List.all_append, all, trimmed]
        rfl
      exact absurd (List.all_eq_true.mp everything c List.mem_cons_self) stays
  · intro nothing
    rw [nothing]
    rfl

@[simp] theorem toList_trim (s : String) :
    (trim s).toList = trimWhere isBlank s.toList := by
  simp [trim]

/-- A trimmed text is blank only when it is empty. -/
theorem isBlankText_trim (s : String) : isBlankText (trim s) = (trim s).isEmpty := by
  rw [Bool.eq_iff_iff, String.isEmpty_iff, ← String.toList_eq_nil_iff, isBlankText, toList_trim,
    all_trimWhere]

end Blockwork.Text
