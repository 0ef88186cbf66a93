import Blockwork.Proofs.Generation.ImportOrigins
import Blockwork.Proofs.Import.Selection
import Blockwork.Session.Program

/-!
# Which import paths reach a file

An import path gets into the file of a session as one of the standard packages, as a path of the
selection, or through a require block. The standard packages are well-formed, and so is every path
that was chosen. But the pieces of the text that the selection was read from are not checked, and
neither is what require blocks declare: these two, and no others, are the ill-formed imports
(`Session.imports_illFormed`).
-/

namespace Blockwork.Session

variable {s : Session} {p : Program} {f : SourceFile} {text path : String}

theorem mem_available : path ∈ s.available ↔ path ∈ standardPackages ∨ path ∈ s.selection :=
  mem_appendNew

theorem isWellFormed_of_standard (standard : path ∈ standardPackages) :
    ImportPath.isWellFormed path = true := by
  have all : standardPackages.all ImportPath.isWellFormed = true := by decide
  exact List.all_eq_true.mp all path standard

/-- An ill-formed path is available only if it was read with the selection. -/
theorem illFormed_mem_available (built : s.selection.BuiltFrom text)
    (illFormed : ImportPath.isWellFormed path = false) :
    path ∈ s.available ↔ path ∈ Selection.piecesOf text ∧ path ∈ s.selection := by
  have nonstandard : path ∉ standardPackages := by
    intro standard
    rw [isWellFormed_of_standard standard] at illFormed
    exact nomatch illFormed
  rw [mem_available, or_iff_right nonstandard]
  constructor
  · intro mem
    rcases built.isWellFormed_or_mem mem with wellFormed | piece
    · rw [illFormed] at wellFormed
      exact nomatch wellFormed
    · exact ⟨piece, mem⟩
  · exact fun both => both.2

/-- **Ill-formed imports come from the text of the selection or from require blocks.** Let the
selection of a session have been read from a text and edited since, and let a program be compiled.
A path that is not well-formed is imported exactly when it is a piece of the text that has not been
given up and an entry point uses it, or when it is not in the selection, not blank, and declared by
a require block. So all imports are well-formed if the pieces of the text and the declared paths
are. -/
theorem imports_illFormed (loaded : s.catalogue.Loaded) (built : s.selection.BuiltFrom text)
    (made : s.compiler.sourceFile p = .ok f) :
    (∀ path, ImportPath.isWellFormed path = false →
      (path ∈ f.imports ↔
        (path ∈ Selection.piecesOf text ∧ path ∈ s.selection ∧ s.compiler.UsedIn p path) ∨
        (path ∉ s.selection ∧ Text.isBlankText path = false ∧ s.compiler.DeclaredIn p path))) ∧
    ((∀ path ∈ Selection.piecesOf text, ImportPath.isWellFormed path = true) →
      (∀ path, s.compiler.DeclaredIn p path → ImportPath.isWellFormed path = true) →
      ∀ path ∈ f.imports, ImportPath.isWellFormed path = true) := by
  have origins : ∀ path, path ∈ f.imports ↔ (path ∈ s.available ∧ s.compiler.UsedIn p path) ∨
      (path ∉ s.available ∧ Text.isBlankText path = false ∧ s.compiler.DeclaredIn p path) :=
    fun path => Compiler.mem_imports_iff loaded made
  refine ⟨fun path illFormed => ?_, fun pieces declared path mem => ?_⟩
  · have read := illFormed_mem_available built illFormed
    have chosen : path ∈ s.available ↔ path ∈ s.selection :=
      ⟨fun mem => (read.mp mem).2, fun mem => mem_available.mpr (.inr mem)⟩
    rw [origins]
    exact or_congr ((and_congr_left' read).trans and_assoc) (and_congr_left' (not_congr chosen))
  · cases wellFormed : ImportPath.isWellFormed path with
    | true => rfl
    | false =>
      rcases (origins path).mp mem with ⟨ok, -⟩ | ⟨-, -, there⟩
      · obtain ⟨piece, -⟩ := (illFormed_mem_available built wellFormed).mp ok
        exact wellFormed.symm.trans (pieces path piece)
      · exact wellFormed.symm.trans (declared path there)

/-- A main function that uses a package, and a block that declares an import. -/
def mainAndRequire (path : String) : Program :=
  ⟨[{ id := "m", kind := "main",
      statements := [("children",
        [{ id := "g", kind := "go", fields := [("line", .text "http.Get()")] }])] },
    { id := "r", kind := "require",
      values := [("VALUE", { id := "t", kind := "text", fields := [("TEXT", .text path)] })] }]⟩

/-- The file of that program in a session whose selection was read from a text with an empty
segment in a path. -/
theorem sourceFile_mainAndRequire :
    let s : Session := { selection := .ofText "net//http" }
    s.compiler.sourceFile (mainAndRequire "my package") =
      .ok { imports := ⟨["net//http", "my package"], by decide⟩
            body := "func main() \x7b\n\thttp.Get()\n\x7d\n" } := by
  intro s
  rw [Compiler.sourceFile_of_sorted (by decide)]
  decide +kernel

/-- Both ways in: the path with an empty segment is used, the one with a blank is declared. -/
theorem imports_illFormed_of_both :
    let s : Session := { selection := .ofText "net//http" }
    let p := mainAndRequire "my package"
    s.compiler.UsedIn p "net//http" ∧ s.compiler.DeclaredIn p "my package" := by
  intro s p
  have all := (imports_illFormed (s := s) .builtins .read sourceFile_mainAndRequire).1
  have chosen : "net//http" ∈ s.selection := by decide
  have other : "my package" ∉ s.selection := by decide
  constructor
  · rcases (all "net//http" (by decide)).mp (by decide) with ⟨-, -, used⟩ | ⟨apart, -⟩
    · exact used
    · exact absurd chosen apart
  · rcases (all "my package" (by decide)).mp (by decide) with ⟨-, mem, -⟩ | ⟨-, -, declared⟩
    · exact absurd mem other
    · exact declared

/-- Neither a path that was read nor one that is declared has to be well-formed to be imported. -/
theorem imports_not_wellFormed :
    let s : Session := { selection := .ofText "net//http" }
    ∃ f, s.compiler.sourceFile (mainAndRequire "my package") = .ok f ∧
      ("net//http" ∈ f.imports ∧ ImportPath.isWellFormed "net//http" = false) ∧
      ("my package" ∈ f.imports ∧ ImportPath.isWellFormed "my package" = false) := by
  intro s
  exact ⟨_, sourceFile_mainAndRequire, by decide, by decide⟩

end Blockwork.Session
