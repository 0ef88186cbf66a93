import Blockwork.Import.Selection
import Blockwork.Proofs.Collection.Firsts
import Blockwork.Proofs.Text.Pieces

/-!
# Selections read back

A selection is read back from its text when its paths can stand between commas: they are not
empty, hold no comma and have no blanks around them (`Selection.ofText_of_isWritten`). Reading
leaves only such paths, and choosing and giving up keep it so. That a path is well-formed is
checked when it is chosen only (`Selection.BuiltFrom.isWellFormed_or_mem`).
-/

namespace Blockwork

/-- A path that can stand between the commas of a selection's text. -/
structure ImportPath.IsPiece (path : String) : Prop where
  present : path ≠ ""
  plain : ',' ∉ path.toList
  trimmed : Text.trim path = path

/-- An import path is a piece when there are no blanks around it. -/
theorem ImportPath.isPiece_trim {path : String}
    (wellFormed : isWellFormed (Text.trim path) = true) : IsPiece (Text.trim path) := by
  obtain ⟨present, allowed, -⟩ := isWellFormed_iff.mp wellFormed
  refine ⟨present, fun comma => ?_, Text.trim_trim path⟩
  have forbidden : isForbidden ',' = true := by decide
  rw [allowed ',' comma] at forbidden
  exact nomatch forbidden

namespace Selection

variable {s : Selection} {path : String}

/-- Every path of the selection can stand between commas. -/
def IsWritten (s : Selection) : Prop :=
  ∀ path ∈ s.paths, ImportPath.IsPiece path

theorem isWritten_empty : IsWritten {} :=
  nofun

/-! ### Reading -/

theorem isPiece_of_mem_piecesOf {text : String} (mem : path ∈ piecesOf text) :
    ImportPath.IsPiece path := by
  obtain ⟨inside, present⟩ := List.mem_filter.mp mem
  obtain ⟨piece, cut, rfl⟩ := List.mem_map.mp inside
  refine ⟨?_, ?_, ?_⟩
  · intro empty
    rw [empty] at present
    exact absurd present (by decide)
  · intro comma
    rw [String.toList_ofList] at comma
    exact Text.not_mem_of_mem_cut cut (Text.mem_of_mem_trimWhere comma)
  · apply String.toList_inj.mp
    rw [Text.toList_trim, String.toList_ofList, Text.trimWhere_trimWhere]

/-- What reading leaves can be written. -/
theorem isWritten_ofText (text : String) : (ofText text).IsWritten := by
  intro path mem
  unfold ofText at mem
  rw [paths_foldl_append, mem_appendNew] at mem
  rcases mem with mem | mem
  · exact absurd mem List.not_mem_nil
  · exact isPiece_of_mem_piecesOf mem

theorem piecesOf_toText (written : s.IsWritten) : piecesOf s.toText = s.paths := by
  have pieces : ∀ path ∈ s.paths,
      String.ofList (Text.trimWhere Text.isBlank path.toList) = path :=
    fun path mem => (written path mem).trimmed
  have kept : s.paths.filter (fun path => !path.isEmpty) = s.paths := by
    rw [List.filter_eq_self]
    intro path mem
    simpa using (written path mem).present
  unfold piecesOf toText
  by_cases empty : s.paths = []
  · rw [empty]
    decide
  · have cut := Text.cut_joinWith empty fun path mem => (written path mem).plain
    have comma : String.singleton ',' = "," := rfl
    have read : (s.paths.map String.toList).map
        (fun piece => String.ofList (Text.trimWhere Text.isBlank piece)) = s.paths := by
      rw [List.map_map]
      exact (List.map_congr_left pieces).trans (List.map_id' _)
    rw [comma] at cut
    rw [cut, read, kept]

theorem eq_of_paths {a b : Selection} (same : a.paths = b.paths) : a = b := by
  cases a
  cases b
  congr

/-- A selection that can be written is read back from its text. -/
theorem ofText_of_isWritten (written : s.IsWritten) : ofText s.toText = s := by
  have paths : (ofText s.toText).paths = s.paths := by
    unfold ofText
    rw [piecesOf_toText written, paths_foldl_append]
    exact appendNew_of_nodup (by simpa using s.nodup)
  exact eq_of_paths paths

/-! ### Choosing and giving up -/

theorem IsWritten.append (written : s.IsWritten) (piece : ImportPath.IsPiece path) :
    (s.append path).IsWritten := by
  intro other mem
  rw [paths_append, mem_addNew] at mem
  rcases mem with mem | rfl
  · exact written other mem
  · exact piece

theorem IsWritten.choose (written : s.IsWritten) {new : Bool} {selection : Selection}
    (chosen : s.choose path = .ok (new, selection)) : selection.IsWritten := by
  unfold Selection.choose at chosen
  simp only at chosen
  split at chosen
  · exact nomatch chosen
  · rename_i wellFormed
    obtain ⟨-, rfl⟩ := Prod.mk.inj (Except.ok.inj chosen)
    exact written.append (ImportPath.isPiece_trim (by simpa using wellFormed))

theorem IsWritten.giveUp (written : s.IsWritten) (path : String) :
    (s.giveUp path).2.IsWritten :=
  fun other mem => written other (List.mem_filter.mp mem).1

/-- A selection that was read from a text and changed by choosing paths and giving paths up. -/
inductive BuiltFrom (text : String) : Selection → Prop where
  | read : BuiltFrom text (ofText text)
  | choose {s t : Selection} {path : String} {new : Bool} (built : BuiltFrom text s)
      (chosen : s.choose path = .ok (new, t)) : BuiltFrom text t
  | giveUp {s : Selection} (built : BuiltFrom text s) (path : String) :
      BuiltFrom text (s.giveUp path).2

/-- Paths are checked when they are chosen, and not when they are read. -/
theorem BuiltFrom.isWellFormed_or_mem {text : String} (built : BuiltFrom text s)
    (mem : path ∈ s.paths) : ImportPath.isWellFormed path = true ∨ path ∈ piecesOf text := by
  induction built with
  | read =>
    unfold ofText at mem
    rw [paths_foldl_append, mem_appendNew] at mem
    exact .inr (mem.resolve_left List.not_mem_nil)
  | choose _ chosen ih =>
    unfold Selection.choose at chosen
    simp only at chosen
    split at chosen
    · exact nomatch chosen
    · rename_i wellFormed
      obtain ⟨-, rfl⟩ := Prod.mk.inj (Except.ok.inj chosen)
      rcases mem_addNew.mp mem with mem | rfl
      · exact ih mem
      · exact .inl (by simpa using wellFormed)
  | giveUp _ other ih => exact ih (List.mem_filter.mp mem).1

end Selection

end Blockwork
