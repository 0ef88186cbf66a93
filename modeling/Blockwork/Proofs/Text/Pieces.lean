import Blockwork.Text.Lines

/-!
# Pieces and trimming

Pieces without separators that are joined by a separator are found again by cutting
(`cut_joinWith`), and no piece holds the separator. Cutting and trimming keep characters of the text
only, and what has been trimmed is trimmed (`trimWhere_trimWhere`).
-/

namespace Blockwork.Text

variable {sep c : Char} {cs piece : List Char} {p : Char → Bool}

/-! ### Pieces -/

theorem cut_of_not_mem (plain : sep ∉ piece) : cut sep piece = [piece] := by
  induction piece with
  | nil => rfl
  | cons c cs ih =>
    have here : c ≠ sep := fun same => plain (same ▸ List.mem_cons_self)
    have there : sep ∉ cs := fun mem => plain (List.mem_cons_of_mem _ mem)
    rw [cut, if_neg here, ih there]

/-- A text is cut at a separator into the pieces in front of it and those behind it. -/
theorem cut_append_sep (cs ds : List Char) :
    cut sep (cs ++ sep :: ds) = cut sep cs ++ cut sep ds := by
  induction cs with
  | nil =>
    show cut sep (sep :: ds) = [] :: cut sep ds
    rw [cut, if_pos rfl]
  | cons c rest ih =>
    rw [List.cons_append, cut, ih, cut]
    split
    · rw [List.cons_append]
    · obtain ⟨first, others, pieces⟩ := List.exists_cons_of_ne_nil (cut_ne_nil sep rest)
      rw [pieces]
      rfl

theorem cut_append_cons (plain : sep ∉ piece) (cs : List Char) :
    cut sep (piece ++ sep :: cs) = piece :: cut sep cs := by
  rw [cut_append_sep, cut_of_not_mem plain, List.singleton_append]

theorem not_mem_of_mem_cut (mem : piece ∈ cut sep cs) : sep ∉ piece := by
  induction cs generalizing piece with
  | nil =>
    obtain rfl := List.mem_singleton.mp mem
    exact List.not_mem_nil
  | cons c rest ih =>
    rw [cut] at mem
    split at mem
    · rcases List.mem_cons.mp mem with rfl | mem
      · exact List.not_mem_nil
      · exact ih mem
    · rename_i other
      split at mem
      · rename_i nothing
        exact absurd nothing (cut_ne_nil sep rest)
      · rename_i first others pieces
        rw [pieces] at ih
        -- The first piece is the one that the character was put in front of.
        rcases List.mem_cons.mp mem with rfl | mem
        · rw [List.mem_cons, not_or]
          exact ⟨Ne.symm other, ih List.mem_cons_self⟩
        · exact ih (List.mem_cons_of_mem _ mem)

/-- A piece has no characters but those of the text. -/
theorem mem_of_mem_cut (mem : piece ∈ cut sep cs) (inside : c ∈ piece) : c ∈ cs := by
  induction cs generalizing piece with
  | nil =>
    obtain rfl := List.mem_singleton.mp mem
    exact inside
  | cons d rest ih =>
    rw [cut] at mem
    split at mem
    · rcases List.mem_cons.mp mem with rfl | mem
      · exact absurd inside List.not_mem_nil
      · exact List.mem_cons_of_mem d (ih mem inside)
    · split at mem
      · rename_i nothing
        exact absurd nothing (cut_ne_nil sep rest)
      · rename_i first others pieces
        rw [pieces] at ih
        rcases List.mem_cons.mp mem with rfl | mem
        · rcases List.mem_cons.mp inside with rfl | inside
          · exact List.mem_cons_self
          · exact List.mem_cons_of_mem d (ih List.mem_cons_self inside)
        · exact List.mem_cons_of_mem d (ih (List.mem_cons_of_mem first mem) inside)

/-- Texts without the separator are the pieces of the text that joins them. -/
theorem cut_joinWith {texts : List String} (present : texts ≠ [])
    (plain : ∀ text ∈ texts, sep ∉ text.toList) :
    cut sep (joinWith (String.singleton sep) texts).toList = texts.map String.toList := by
  induction texts with
  | nil => exact absurd rfl present
  | cons first rest ih =>
    have here := plain first List.mem_cons_self
    cases rest with
    | nil => exact cut_of_not_mem here
    | cons second more =>
      have later := ih (List.cons_ne_nil _ _)
        fun text mem => plain text (List.mem_cons_of_mem _ mem)
      rw [joinWith, String.toList_append, String.toList_append, String.toList_singleton,
        List.append_assoc, List.singleton_append, cut_append_cons here, later]
      · rfl
      · exact List.cons_ne_nil _ _

/-! ### Trimming -/

theorem dropEndWhile_cons_of_not (stays : ¬ p c = true) (cs : List Char) :
    dropEndWhile p (c :: cs) = c :: dropEndWhile p cs := by
  rw [dropEndWhile]
  split
  · rename_i nothing
    rw [if_neg stays, nothing]
  · rfl

theorem dropEndWhile_dropEndWhile (p : Char → Bool) (cs : List Char) :
    dropEndWhile p (dropEndWhile p cs) = dropEndWhile p cs := by
  induction cs with
  | nil => rfl
  | cons c rest ih =>
    rw [dropEndWhile]
    split
    · split
      · rfl
      · rename_i stays
        exact dropEndWhile_cons_of_not stays []
    · rename_i kept present
      rw [dropEndWhile, ih]
      split
      · rename_i nothing
        exact absurd nothing present
      · rfl

/-- What stands in front of characters that stay does so as well. -/
theorem dropEndWhile_append {ds : List Char} (kept : dropEndWhile p ds ≠ []) (cs : List Char) :
    dropEndWhile p (cs ++ ds) = cs ++ dropEndWhile p ds := by
  induction cs with
  | nil => rfl
  | cons c rest ih =>
    rw [List.cons_append, dropEndWhile, ih]
    split
    · rename_i nothing
      exact absurd (List.append_eq_nil_iff.mp nothing).2 kept
    · rfl

theorem dropEndWhile_append_of_all {run : List Char} (all : run.all p = true) (cs : List Char) :
    dropEndWhile p (cs ++ run) = dropEndWhile p cs := by
  induction cs with
  | nil => exact dropEndWhile_eq_nil_iff.mpr all
  | cons c rest ih => rw [List.cons_append, dropEndWhile, ih, dropEndWhile]

theorem dropEndWhile_of_forall (stay : ∀ c ∈ cs, p c = false) : dropEndWhile p cs = cs := by
  induction cs with
  | nil => rfl
  | cons c rest ih =>
    rw [dropEndWhile_cons_of_not (Bool.eq_false_iff.mp (stay c List.mem_cons_self)),
      ih fun d mem => stay d (List.mem_cons_of_mem _ mem)]

theorem trimWhere_of_forall (stay : ∀ c ∈ cs, p c = false) : trimWhere p cs = cs := by
  have front : cs.dropWhile p = cs := by
    cases cs with
    | nil => rfl
    | cons c rest =>
      exact List.dropWhile_cons_of_neg (Bool.eq_false_iff.mp (stay c List.mem_cons_self))
  rw [trimWhere, front, dropEndWhile_of_forall stay]

theorem trimWhere_append_of_all {run : List Char} (all : run.all p = true) (cs : List Char) :
    trimWhere p (cs ++ run) = trimWhere p cs := by
  unfold trimWhere
  rw [List.dropWhile_append]
  split
  · rename_i nothing
    rw [List.isEmpty_iff.mp nothing, dropEndWhile, dropEndWhile_eq_nil_iff, List.all_eq_true]
    exact fun c mem => List.all_eq_true.mp all c ((List.dropWhile_sublist p).subset mem)
  · exact dropEndWhile_append_of_all all _

theorem trimWhere_all_append {run : List Char} (all : run.all p = true) (cs : List Char) :
    trimWhere p (run ++ cs) = trimWhere p cs := by
  unfold trimWhere
  rw [List.dropWhile_append_of_pos (List.all_eq_true.mp all)]

/-- What has been trimmed is trimmed. -/
theorem trimWhere_trimWhere (p : Char → Bool) (cs : List Char) :
    trimWhere p (trimWhere p cs) = trimWhere p cs := by
  unfold trimWhere
  cases start : cs.dropWhile p with
  | nil => rfl
  | cons c rest =>
    have stays : ¬ p c = true := by
      have first := List.head?_dropWhile_not p cs
      rw [start] at first
      simpa using first
    rw [dropEndWhile_cons_of_not stays, List.dropWhile_cons_of_neg stays,
      dropEndWhile_cons_of_not stays, dropEndWhile_dropEndWhile]

theorem mem_of_mem_dropEndWhile (mem : c ∈ dropEndWhile p cs) : c ∈ cs := by
  obtain ⟨run, -, whole⟩ := dropEndWhile_append_run p cs
  exact whole ▸ List.mem_append_left run mem

theorem mem_of_mem_trimWhere (mem : c ∈ trimWhere p cs) : c ∈ cs :=
  (List.dropWhile_sublist p).subset (mem_of_mem_dropEndWhile mem)

theorem trim_trim (s : String) : trim (trim s) = trim s := by
  apply String.toList_inj.mp
  rw [toList_trim, toList_trim, trimWhere_trimWhere]

end Blockwork.Text
