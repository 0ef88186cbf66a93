import Mathlib.Data.List.Nodup
import Mathlib.Data.List.Perm.Subperm
import Blockwork.Catalogue
import Blockwork.Collection.Distinct
import Blockwork.Proofs.Collection.Writes

/-!
# The palette

A section goes to the place of the first one with its title, or to the end. So for each title the
palette has the section that was put in last (`titled?_putAll`), and putting the same sections in
again changes nothing (`putAll_putAll`): the places are taken already.
-/

namespace Blockwork

/-- Each of some elements stands once in a list that begins with them when none is repeated, there
or behind. -/
theorem forall_count_append_eq_one {α : Type} [DecidableEq α] {xs ys : List α} :
    (∀ x ∈ xs, (xs ++ ys).count x = 1) ↔ xs.Nodup ∧ ∀ x ∈ xs, x ∉ ys := by
  constructor
  · intro once
    have counts : ∀ x ∈ xs, xs.count x = 1 ∧ ys.count x = 0 := by
      intro x mem
      have total := once x mem
      have here := List.count_pos_iff.mpr mem
      rw [List.count_append] at total
      omega
    exact ⟨List.nodup_iff_count_eq_one.mpr fun x mem => (counts x mem).1,
      fun x mem => List.count_eq_zero.mp (counts x mem).2⟩
  · rintro ⟨distinct, apart⟩ x mem
    rw [List.count_append, List.count_eq_one_of_mem distinct mem,
      List.count_eq_zero_of_not_mem (apart x mem)]

namespace PaletteSection

variable {s t : PaletteSection} {palette : List PaletteSection} {title : String}

/-- The first section with a title. -/
def titled? (title : String) (palette : List PaletteSection) : Option PaletteSection :=
  palette.find? fun s => s.title = title

theorem titled?_putInto (palette : List PaletteSection) (s : PaletteSection) (title : String) :
    titled? title (s.putInto palette) =
      if s.title = title then some s else titled? title palette := by
  unfold titled?
  induction palette with
  | nil => by_cases same : s.title = title <;> simp [putInto, same]
  | cons first rest ih =>
    rw [putInto]
    split
    · rename_i replaced
      by_cases same : s.title = title
      · simp [same]
      · simp [same, replaced]
    · rename_i other
      by_cases here : first.title = title
      · have away : s.title ≠ title := fun same => other (here.trans same.symm)
        simp [here, away]
      · simpa [here] using ih

/-- A section that is there already is put in its own place. -/
theorem putInto_of_titled? (there : titled? s.title palette = some s) :
    s.putInto palette = palette := by
  unfold titled? at there
  induction palette with
  | nil => exact nomatch there
  | cons first rest ih =>
    rw [putInto]
    split
    · rename_i same
      rw [List.find?_cons_of_pos (by simpa using same)] at there
      rw [Option.some.inj there]
    · rename_i other
      rw [List.find?_cons_of_neg (by simpa using other)] at there
      rw [ih there]

/-- Of two sections with one title the later stays. -/
theorem putInto_putInto (same : s.title = t.title) (palette : List PaletteSection) :
    t.putInto (s.putInto palette) = t.putInto palette := by
  induction palette with
  | nil => simp [putInto, same]
  | cons first rest ih =>
    by_cases here : first.title = s.title
    · simp [putInto, here, same]
    · have other : first.title ≠ t.title := fun there => here (there.trans same.symm)
      simp [putInto, here, other, ih]

/-- Sections with different titles may change places when one of them has its place already. -/
theorem putInto_comm (other : s.title ≠ t.title) (there : (titled? s.title palette).isSome) :
    t.putInto (s.putInto palette) = s.putInto (t.putInto palette) := by
  unfold titled? at there
  induction palette with
  | nil => exact nomatch there
  | cons first rest ih =>
    by_cases here : first.title = s.title
    · simp [putInto, here, other]
    · rw [List.find?_cons_of_neg (by simpa using here)] at there
      by_cases second : first.title = t.title
      · simp [putInto, second, Ne.symm other]
      · simp [putInto, here, second, ih there]

/-! ### Many sections -/

/-- Puts sections in, one after the other. -/
def putAll (sections palette : List PaletteSection) : List PaletteSection :=
  sections.foldl (fun palette s => s.putInto palette) palette

/-- The last section with a title. -/
def lastTitled? (title : String) (sections : List PaletteSection) : Option PaletteSection :=
  sections.findRev? fun s => s.title = title

theorem lastTitled?_cons (s : PaletteSection) (rest : List PaletteSection) (title : String) :
    lastTitled? title (s :: rest) =
      (lastTitled? title rest).or (if s.title = title then some s else none) := by
  unfold lastTitled?
  rw [List.findRev?]
  cases rest.findRev? fun s => s.title = title with
  | some later => rfl
  | none => by_cases here : s.title = title <;> simp [here]

theorem isSome_lastTitled? {sections : List PaletteSection} :
    (lastTitled? title sections).isSome ↔ ∃ s ∈ sections, s.title = title := by
  unfold lastTitled?
  rw [isSome_findRev?]
  simp

theorem titled?_putAll (sections palette : List PaletteSection) (title : String) :
    titled? title (putAll sections palette) =
      (lastTitled? title sections).or (titled? title palette) := by
  have last := lookup_foldl titled? titled?_putInto sections palette title
  rwa [Option.map_id'] at last

/-- A section leaves no trace when one of its title follows. -/
theorem putAll_putInto {sections : List PaletteSection}
    (follows : ∃ t ∈ sections, t.title = s.title) (there : (titled? s.title palette).isSome) :
    putAll sections (s.putInto palette) = putAll sections palette := by
  unfold putAll
  induction sections generalizing palette with
  | nil =>
    obtain ⟨t, mem, -⟩ := follows
    exact absurd mem List.not_mem_nil
  | cons first rest ih =>
    rw [List.foldl_cons, List.foldl_cons]
    by_cases same : s.title = first.title
    · rw [putInto_putInto same]
    · obtain ⟨t, mem, titled⟩ := follows
      have later : t ∈ rest := by
        rcases List.mem_cons.mp mem with rfl | later
        · exact absurd titled.symm same
        · exact later
      rw [putInto_comm same there]
      apply ih ⟨t, later, titled⟩
      rw [titled?_putInto, if_neg (Ne.symm same)]
      exact there

/-- Nothing changes in a palette that has the last section of each title. -/
theorem putAll_of_titled? {sections : List PaletteSection}
    (there : ∀ s ∈ sections, titled? s.title palette = lastTitled? s.title sections) :
    putAll sections palette = palette := by
  induction sections with
  | nil => rfl
  | cons s rest ih =>
    have front := there s List.mem_cons_self
    have behind : putAll rest palette = palette := by
      apply ih
      intro t mem
      rw [there t (List.mem_cons_of_mem _ mem), lastTitled?_cons,
        Option.or_of_isSome (isSome_lastTitled?.mpr ⟨t, mem, rfl⟩)]
    show putAll rest (s.putInto palette) = palette
    by_cases follows : ∃ t ∈ rest, t.title = s.title
    · have placed : (titled? s.title palette).isSome := by
        rw [front]
        exact isSome_lastTitled?.mpr ⟨s, List.mem_cons_self, rfl⟩
      rw [putAll_putInto follows placed, behind]
    · have last : titled? s.title palette = some s := by
        rw [← isSome_lastTitled?, Option.not_isSome_iff_eq_none] at follows
        rw [front, lastTitled?_cons, follows, if_pos rfl, Option.none_or]
      rw [putInto_of_titled? last, behind]

/-- Sections that have been put in are in their places. -/
theorem putAll_putAll (sections palette : List PaletteSection) :
    putAll sections (putAll sections palette) = putAll sections palette := by
  apply putAll_of_titled?
  intro s mem
  rw [titled?_putAll, Option.or_of_isSome (isSome_lastTitled?.mpr ⟨s, mem, rfl⟩)]

/-! ### What a palette shows -/

/-- The titles of the sections, in their order. -/
def titles (palette : List PaletteSection) : List String :=
  palette.map (·.title)

/-- The block types that the sections list, each as often as it is listed. -/
def shown (palette : List PaletteSection) : List String :=
  palette.flatMap (·.types)

/-- The sections of a palette whose titles none of the given sections has. -/
def titledOtherwise (sections palette : List PaletteSection) : List PaletteSection :=
  palette.filter fun old => old.title ∉ titles sections

theorem titles_putInto (s : PaletteSection) (palette : List PaletteSection) :
    titles (s.putInto palette) = addNew (titles palette) s.title := by
  unfold titles addNew
  induction palette with
  | nil => rfl
  | cons first rest ih =>
    rw [putInto]
    by_cases same : first.title = s.title
    · simp [same]
    · rw [if_neg same, List.map_cons, ih]
      by_cases mem : s.title ∈ rest.map (·.title)
      · rw [if_pos mem, List.map_cons, if_pos (List.mem_cons_of_mem _ mem)]
      · rw [if_neg mem, List.map_cons, if_neg (by simp [Ne.symm same, mem]), List.cons_append]

theorem titles_putAll (sections palette : List PaletteSection) :
    titles (putAll sections palette) = appendNew (titles palette) (titles sections) := by
  unfold putAll
  induction sections generalizing palette with
  | nil => rfl
  | cons s rest ih =>
    rw [List.foldl_cons, ih, titles_putInto]
    rfl

/-- A section takes the place of the first one with its title, or goes to the end. -/
theorem putInto_cases (s : PaletteSection) (palette : List PaletteSection) :
    (∃ before old after, palette = before ++ old :: after ∧ old.title = s.title ∧
      s.title ∉ titles before ∧ s.putInto palette = before ++ s :: after) ∨
    (s.title ∉ titles palette ∧ s.putInto palette = palette ++ [s]) := by
  unfold titles
  induction palette with
  | nil => exact .inr ⟨List.not_mem_nil, rfl⟩
  | cons first rest ih =>
    rw [putInto]
    by_cases same : first.title = s.title
    · rw [if_pos same]
      exact .inl ⟨[], first, rest, rfl, same, List.not_mem_nil, rfl⟩
    · rw [if_neg same]
      -- The section goes behind the first one either way.
      rcases ih with ⟨before, old, after, rfl, titled, absent, put⟩ | ⟨absent, put⟩
      · refine .inl ⟨first :: before, old, after, rfl, titled, ?_, by rw [put]; rfl⟩
        simpa [Ne.symm same] using absent
      · refine .inr ⟨?_, by rw [put]; rfl⟩
        simpa [Ne.symm same] using absent

theorem nodup_titles_putAll (distinct : (titles palette).Nodup) (sections : List PaletteSection) :
    (titles (putAll sections palette)).Nodup := by
  rw [titles_putAll]
  exact nodup_appendNew distinct (titles sections)

/-- Putting a section in takes away no section but the one with its title. -/
theorem perm_putInto (distinct : (titles palette).Nodup) :
    (s.putInto palette).Perm (s :: titledOtherwise [s] palette) := by
  unfold titledOtherwise titles at *
  induction palette with
  | nil => exact .refl _
  | cons first rest ih =>
    obtain ⟨absent, distinct⟩ := List.nodup_cons.mp distinct
    rw [putInto]
    by_cases same : first.title = s.title
    · -- No other section has the title of the first one, so the rest stays whole.
      have whole : (rest.filter fun old => old.title ∉ [s].map (·.title)) = rest := by
        rw [List.filter_eq_self]
        intro old mem
        have other : old.title ≠ s.title := fun titled =>
          absent (List.mem_map.mpr ⟨old, mem, titled.trans same.symm⟩)
        simpa using other
      rw [if_pos same, List.filter_cons_of_neg (by simp [same]), whole]
    · rw [if_neg same, List.filter_cons_of_pos (by simp [same])]
      exact ((ih distinct).cons first).trans (.swap s first _)

/-- Putting in sections with different titles takes away no section but those with their
titles. -/
theorem perm_putAll {sections : List PaletteSection} (distinct : (titles palette).Nodup)
    (apart : (titles sections).Nodup) :
    (putAll sections palette).Perm (sections ++ titledOtherwise sections palette) := by
  induction sections generalizing palette with
  | nil =>
    simp [putAll, titledOtherwise, titles]
  | cons s rest ih =>
    obtain ⟨absent, apart⟩ := List.nodup_cons.mp apart
    have first : (titles (s.putInto palette)).Nodup := nodup_titles_putAll distinct [s]
    have stays : titledOtherwise rest (s :: titledOtherwise [s] palette) =
        s :: titledOtherwise (s :: rest) palette := by
      unfold titledOtherwise
      rw [List.filter_cons_of_pos (by simpa [titles] using absent), List.filter_filter]
      congr 2
      funext old
      by_cases same : old.title = s.title <;> simp [titles, same]
    have others : (titledOtherwise rest (s.putInto palette)).Perm
        (s :: titledOtherwise (s :: rest) palette) := by
      rw [← stays]
      exact (perm_putInto distinct).filter _
    show (putAll rest (s.putInto palette)).Perm _
    exact (ih first apart).trans ((others.append_left rest).trans List.perm_middle)

/-- Sections that are put in all stay exactly when their titles differ. -/
theorem subperm_putAll_iff {sections : List PaletteSection} (distinct : (titles palette).Nodup) :
    sections.Subperm (putAll sections palette) ↔ (titles sections).Nodup := by
  constructor
  · intro stay
    obtain ⟨same, perm, inOrder⟩ := stay
    have kept : (titles same).Nodup :=
      (nodup_titles_putAll distinct sections).sublist (inOrder.map _)
    have sameTitles : (titles same).Perm (titles sections) := perm.map _
    exact sameTitles.nodup_iff.mp kept
  · intro apart
    exact (List.sublist_append_left _ _).subperm.trans (perm_putAll distinct apart).symm.subperm

/-- What a palette shows after sections with different titles have been put in. -/
theorem shown_putAll {sections : List PaletteSection} (distinct : (titles palette).Nodup)
    (apart : (titles sections).Nodup) :
    (shown (putAll sections palette)).Perm
      (shown sections ++ shown (titledOtherwise sections palette)) := by
  unfold shown
  rw [← List.flatMap_append]
  exact (perm_putAll distinct apart).flatMap_right _

/-- Sections with different titles show each of their types once when they list none of them twice,
and no section that stays lists one of them. -/
theorem shown_once_iff {sections : List PaletteSection} (distinct : (titles palette).Nodup)
    (apart : (titles sections).Nodup) :
    (∀ id ∈ shown sections, (shown (putAll sections palette)).count id = 1) ↔
      (shown sections).Nodup ∧
        ∀ id ∈ shown sections, id ∉ shown (titledOtherwise sections palette) := by
  rw [← forall_count_append_eq_one]
  exact forall₂_congr fun id _ => by rw [(shown_putAll distinct apart).count_eq]

end PaletteSection

end Blockwork
