import Mathlib.Control.Monad.Basic
import Blockwork.Proofs.Block.RootOrder
import Blockwork.Proofs.Generation.Gathering

/-!
# The imports of a file

A file imports what its roots ask for. What is available is asked for by entry points only, and
each of them looks at its own code: a package that code outside of every entry point refers to
is imported by chance (`Compiler.sourceFile_imports_used_by_entry`).
-/

namespace Blockwork

variable {path : String}

theorem SourceFile.mem_imports_ofSnippets {snippets : List Snippet} :
    path ∈ (ofSnippets snippets).imports ↔ ∃ s ∈ snippets, path ∈ s.usage.imports := by
  suffices ∀ start : ImportList,
      path ∈ (snippets.foldl (fun imports s => imports.addAll s.usage.imports) start).paths ↔
        path ∈ start.paths ∨ ∃ s ∈ snippets, path ∈ s.usage.imports by
    have whole := this {}
    rwa [or_iff_right List.not_mem_nil] at whole
  induction snippets with
  | nil => simp
  | cons s rest ih =>
    intro start
    simp only [List.foldl_cons, ih, ImportList.paths_addAll, mem_appendNew, List.mem_cons,
      or_and_right, exists_or, exists_eq_left, or_assoc]

namespace Compiler

variable {c : Compiler} {p : Program} {f : SourceFile}

/-- A file is put together from the snippets of its roots. -/
theorem sourceFile_eq_ok :
    c.sourceFile p = .ok f ↔
      ∃ snippets, c.snippets p.rootsInOrder = .ok snippets ∧ f = .ofSnippets snippets := by
  unfold sourceFile
  cases c.snippets p.rootsInOrder with
  | error failure => simp [Except.map]
  | ok snippets => simp [Except.map, eq_comm]

/-- Roots that are listed in order are compiled as they are listed. -/
theorem sourceFile_of_sorted
    (sorted : p.blocks.Pairwise fun a b => Point.mayPrecede a.position b.position = true) :
    c.sourceFile p = (c.snippets p.blocks).map SourceFile.ofSnippets := by
  unfold sourceFile
  rw [Program.rootsInOrder_of_sorted sorted]

/-- Every root of a file is generated. -/
theorem outcome_of_root (made : c.sourceFile p = .ok f) {root : Block}
    (standing : root ∈ p.blocks) : ∃ s, (c.compile root).outcome = .ok s := by
  obtain ⟨snippets, done, -⟩ := sourceFile_eq_ok.mp made
  obtain ⟨s, -, generated⟩ := snippet_of_mem done (p.mem_rootsInOrder.mpr standing)
  exact ⟨s, generated⟩

/-- A file imports what its roots ask for. -/
theorem mem_imports_sourceFile (made : c.sourceFile p = .ok f) :
    path ∈ f.imports ↔
      ∃ root ∈ p.blocks, ∃ s, (c.compile root).outcome = .ok s ∧ path ∈ s.usage.imports := by
  obtain ⟨snippets, done, rfl⟩ := sourceFile_eq_ok.mp made
  rw [SourceFile.mem_imports_ofSnippets]
  constructor
  · rintro ⟨s, mem, asked⟩
    obtain ⟨root, standing, generated⟩ := mem_of_snippets done mem
    exact ⟨root, p.mem_rootsInOrder.mp standing, s, generated, asked⟩
  · rintro ⟨root, standing, s, generated, asked⟩
    obtain ⟨t, mem, same⟩ := snippet_of_mem done (p.mem_rootsInOrder.mpr standing)
    rw [generated] at same
    exact ⟨t, mem, Except.ok.inj same ▸ asked⟩

/-- **A file imports what its entry points use.** A path that is available is among the imports
of a file exactly when a main function or a server that was generated with the file, as a root
or inside one, uses the path. -/
theorem sourceFile_imports_used_by_entry (loaded : c.catalogue.Loaded)
    (made : c.sourceFile p = .ok f) (available : path ∈ c.available) :
    path ∈ f.imports ↔
      ∃ root ∈ p.blocks, ∃ entry, c.catalogue.Reaches root entry ∧
        (entry.kind = "main" ∨ entry.kind = "server") ∧
        ∃ s, (c.compile entry).outcome = .ok s ∧
          ∃ name ∈ ImportPath.namesOf c.catalogue.knownNames path, name ∈ s.usage.packages := by
  rw [mem_imports_sourceFile made]
  constructor
  · rintro ⟨root, standing, s, generated, asked⟩
    obtain ⟨r, t, reaches, done, asks⟩ := origin_of_import loaded root s generated path asked
    rcases asks with ⟨-, entry, uses⟩ | ⟨unavailable, -⟩
    · exact ⟨root, standing, r, reaches, entry, t, done, uses⟩
    · exact absurd available unavailable
  · rintro ⟨root, standing, entry, reaches, isEntry, t, done, uses⟩
    obtain ⟨s, generated⟩ := outcome_of_root made standing
    have asked := imports_of_entry loaded isEntry done available uses
    have within := within_of_reaches loaded reaches generated done
    exact ⟨root, standing, s, generated, within.imports path asked⟩

/-- Of a main function and a line of code behind it, the package that the main function uses is
imported, and the one that only the line uses is not. -/
theorem sourceFile_imports_used_by_entry_of_main :
    let c : Compiler := { catalogue := .ofBuiltins, available := ["os", "time"] }
    let exit : Block := { id := "x", kind := "go", fields := [("line", .text "os.Exit(1)")] }
    let main : Block := { id := "m", kind := "main", statements := [("children", [exit])] }
    let started : Block :=
      { id := "g", kind := "go", fields := [("line", .text "var started = time.Now()")] }
    let usedByEntry (path : String) : Prop :=
      ∃ root ∈ [main, started], ∃ entry, c.catalogue.Reaches root entry ∧
        (entry.kind = "main" ∨ entry.kind = "server") ∧
        ∃ s, (c.compile entry).outcome = .ok s ∧
          ∃ name ∈ ImportPath.namesOf c.catalogue.knownNames path, name ∈ s.usage.packages
    usedByEntry "os" ∧ ¬ usedByEntry "time" := by
  intro c exit main started usedByEntry
  let f : SourceFile :=
    { imports := ⟨["os"], by decide⟩
      body := "func main() \x7b\n\tos.Exit(1)\n\x7d\n\nvar started = time.Now()\n" }
  have made : c.sourceFile ⟨[main, started]⟩ = .ok f := by
    unfold sourceFile
    rw [Program.rootsInOrder_of_sorted (by decide)]
    decide +kernel
  have exits : "os" ∈ f.imports ↔ usedByEntry "os" :=
    sourceFile_imports_used_by_entry .builtins made (by decide)
  have starts : "time" ∈ f.imports ↔ usedByEntry "time" :=
    sourceFile_imports_used_by_entry .builtins made (by decide)
  exact ⟨exits.mp (by decide), fun used => absurd (starts.mpr used) (by decide)⟩

/-- Code outside of the entry points refers to a package that is available, and the import block
for the package asks for nothing: the file lacks the import. -/
theorem imports_of_sourceFile_lack_outside_use :
    let c : Compiler := { catalogue := .ofBuiltins, available := standardPackages }
    let main : Block := { id := "m", kind := "main" }
    let started : Block :=
      { id := "g", kind := "go", fields := [("line", .text "var started = time.Now()")] }
    let require : Block :=
      { id := "r", kind := "require",
        values := [("VALUE", { id := "t", kind := "text", fields := [("TEXT", .text "time")] })] }
    ∃ f s, c.sourceFile ⟨[main, started, require]⟩ = .ok f ∧
      (c.compile started).outcome = .ok s ∧ "time" ∈ c.available ∧
      (∃ name ∈ ImportPath.namesOf c.catalogue.knownNames "time", name ∈ s.usage.packages) ∧
      "time" ∉ f.imports := by
  intro c main started require
  refine ⟨⟨⟨[], .nil⟩, "func main() \x7b\n\x7d\n\nvar started = time.Now()\n"⟩,
    ⟨"var started = time.Now()\n", none, ⟨NameSet.ofList ["time"], []⟩⟩, ?_, ?_, ?_, ?_, ?_⟩
  · unfold sourceFile
    rw [Program.rootsInOrder_of_sorted (by decide)]
    decide +kernel
  · decide +kernel
  · decide
  · decide +kernel
  · decide

end Compiler

end Blockwork
