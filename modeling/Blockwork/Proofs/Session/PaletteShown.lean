import Blockwork.Proofs.Import.GuessedName
import Blockwork.Proofs.Session.TakingAll

/-!
# What the palette shows

After all chosen packages have been taken in, each batch should have a section of its own, and each
block type that was accepted should be shown once. A section has its place by its title, so that is
so exactly when no two batches have the same title, and nothing is accepted twice or shown by a
section that stays from before (`Session.takeAll_shows`).

A title is made of the guessed name of a package. Batches of well-formed paths have the same title
exactly when they list the same part of packages with the same guessed name (`Batch.title_eq_iff`).
Of these only the last one is shown: packages that are called alike hide each other's block types
(`Session.hidden_by_title`).
-/

namespace Blockwork

/-! ### Which batches have the same title -/

namespace Batch

/-- The part of the package that a batch lists. -/
def part : Batch → PackagePart
  | functions _ _ _ => .functions
  | structs _ _ _ => .structs

/-- No guessed name ends like the title of structs. -/
theorem guessedName_ne_types {path : String} (wellFormed : ImportPath.isWellFormed path = true)
    (name : String) : ImportPath.guessedName path ≠ name ++ " types" := by
  intro same
  have blank : ' ' ∈ (name ++ " types").toList := by simp
  rw [← same] at blank
  exact ImportPath.not_mem_guessedName wellFormed (by decide) blank

theorem title_eq_iff {a b : Batch} (first : ImportPath.isWellFormed a.path = true)
    (second : ImportPath.isWellFormed b.path = true) :
    a.title = b.title ↔
      a.part = b.part ∧ ImportPath.guessedName a.path = ImportPath.guessedName b.path := by
  cases a with
  | functions path index entries =>
    cases b with
    | functions other _ _ => exact (and_iff_right rfl).symm
    | structs other _ _ =>
      exact iff_of_false (guessedName_ne_types first _) fun same => nomatch same.1
  | structs path index entries =>
    cases b with
    | functions other _ _ =>
      exact iff_of_false (guessedName_ne_types second _).symm fun same => nomatch same.1
    | structs other _ _ =>
      have tail : ImportPath.guessedName path ++ " types" =
          ImportPath.guessedName other ++ " types" ↔
          ImportPath.guessedName path = ImportPath.guessedName other := String.append_left_inj _
      exact tail.trans (and_iff_right rfl).symm

theorem nodup_titles_iff {batches : List Batch}
    (wellFormed : ∀ b ∈ batches, ImportPath.isWellFormed b.path = true) :
    (batches.map (·.title)).Nodup ↔ batches.Pairwise fun a b =>
      a.part = b.part → ImportPath.guessedName a.path ≠ ImportPath.guessedName b.path := by
  rw [List.Nodup, List.pairwise_map]
  refine List.Pairwise.iff_of_mem fun {a b} first second => ?_
  rw [Ne, title_eq_iff (wellFormed a first) (wellFormed b second), not_and]

end Batch

/-! ### What is shown -/

namespace Session

open PaletteSection

theorem palette_takeAll (s : Session) (source : EntrySource) :
    (s.takeAll source).2.catalogue.palette =
      putAll ((Arrival.batches (s.selection.arrivals source)).map (·.paletteSection s.settings))
        s.catalogue.palette := by
  rw [takeAll_eq]
  simp only [foldl_receive, Catalogue.takeBatches_eq]

theorem accepted_takeAll (s : Session) (source : EntrySource) :
    (s.takeAll source).1.accepted =
      shown ((Arrival.batches (s.selection.arrivals source)).map
        (·.paletteSection s.settings)) := by
  rw [takeAll_eq]
  simp only [foldl_intake]
  rw [shown, List.flatMap_map, List.flatMap_map]
  rfl

/-- **What the palette shows.** After all chosen packages have been taken in from a source, into
any palette that sections were put into one after the other:

* no two sections have the same title, and a title leads to the section of the last batch that has
  it, or else to the section that it led to before;
* each batch has a section of its own exactly when the titles of the batches differ; if the chosen
  paths are well-formed, these differ exactly when no two batches list the same part of packages
  with the same guessed name;
* each batch has a section of its own and each accepted block type is shown once exactly when, in
  addition, none is accepted twice and none is shown by a section that stays from before. -/
theorem takeAll_shows (s : Session) (source : EntrySource) (earlier : List PaletteSection)
    (made : s.catalogue.palette = putAll earlier []) :
    let batches := Arrival.batches (s.selection.arrivals source)
    let sections := batches.map (·.paletteSection s.settings)
    let accepted := (s.takeAll source).1.accepted
    let palette := (s.takeAll source).2.catalogue.palette
    (titles palette).Nodup ∧
      (∀ title, titled? title palette =
        (lastTitled? title sections).or (titled? title s.catalogue.palette)) ∧
      (sections.Subperm palette ↔ (batches.map (·.title)).Nodup) ∧
      ((∀ path ∈ s.selection.paths, ImportPath.isWellFormed path = true) →
        ((batches.map (·.title)).Nodup ↔ batches.Pairwise fun a b =>
          a.part = b.part → ImportPath.guessedName a.path ≠ ImportPath.guessedName b.path)) ∧
      (sections.Subperm palette ∧ (∀ id ∈ accepted, (shown palette).count id = 1) ↔
        (batches.map (·.title)).Nodup ∧ accepted.Nodup ∧
          ∀ id ∈ accepted, id ∉ shown (titledOtherwise sections s.catalogue.palette)) := by
  intro batches sections accepted palette
  have put : palette = putAll sections s.catalogue.palette := palette_takeAll s source
  have told : accepted = shown sections := accepted_takeAll s source
  have before : (titles s.catalogue.palette).Nodup := by
    rw [made]
    have nothing : (titles []).Nodup := List.nodup_nil
    exact nodup_titles_putAll nothing earlier
  have titled : titles sections = batches.map (·.title) := List.map_map
  have own : sections.Subperm palette ↔ (batches.map (·.title)).Nodup := by
    rw [put, subperm_putAll_iff before, titled]
  refine ⟨?_, ?_, own, ?_, ?_⟩
  · rw [put]
    exact nodup_titles_putAll before sections
  · intro title
    rw [put]
    exact titled?_putAll sections _ title
  · intro wellFormed
    exact Batch.nodup_titles_iff fun b mem =>
      wellFormed b.path (Selection.path_mem_of_arrives mem)
  · rw [own, told, put]
    exact and_congr_right fun apart => shown_once_iff before (titled ▸ apart)

/-- Functions and structs of a package, functions of another one, and a text that is no document:
all that is accepted is shown once, in a section for each of the three batches. -/
theorem takeAll_shows_of_packages :
    let s : Session := { selection := ⟨["net/http", "os"], by decide⟩ }
    let source : EntrySource :=
      { functions := fun path =>
          .ok (if path = "os" then "[[\"os\",\"Exit\"]]" else "[[\"http\",\"Get\"]]")
        structs := fun path => .ok (if path = "os" then "[[" else "[[\"http\",\"Client\"]]") }
    let batches := Arrival.batches (s.selection.arrivals source)
    let palette := (s.takeAll source).2.catalogue.palette
    s.catalogue.palette = putAll [] [] ∧
      (batches.map (·.paletteSection s.settings)).Subperm palette ∧
      ∀ id ∈ (s.takeAll source).1.accepted, (shown palette).count id = 1 := by
  intro s source batches palette
  obtain ⟨-, -, -, -, all⟩ := takeAll_shows s source [] rfl
  have apart : (batches.map (·.title)).Nodup := by decide +kernel
  have once : (s.takeAll source).1.accepted.Nodup := by decide +kernel
  exact ⟨rfl, all.mpr ⟨apart, once, fun _ _ => List.not_mem_nil⟩⟩

/-- Two packages called `template`: the functions of the first one are accepted and listed, and the
palette does not show them, since the section of the second one has the same title. -/
theorem hidden_by_title :
    let s : Session := { selection := ⟨["text/template", "html/template"], by decide⟩ }
    let source : EntrySource :=
      { functions := fun path =>
          .ok (if path = "text/template" then "[[\"template\",\"Must\"]]"
            else "[[\"template\",\"HTMLEscape\"]]")
        structs := fun _ => .ok "[]" }
    let batches := Arrival.batches (s.selection.arrivals source)
    let told := (s.takeAll source).1
    let now := (s.takeAll source).2
    told.refused = [] ∧ told.accepted = ["template_Must", "template_HTMLEscape"] ∧
      (now.catalogue.get? "template_Must").isSome ∧
      shown now.catalogue.palette = ["template_HTMLEscape"] ∧
      ¬ (batches.map (·.paletteSection s.settings)).Subperm now.catalogue.palette := by
  decide +kernel

end Session

end Blockwork
