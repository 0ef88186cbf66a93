import Blockwork.Proofs.Generation.FileImports
import Blockwork.Proofs.Generation.Requires

/-!
# Where the imports of a file come from

There are two ways into the imports of a file. A path that is available is imported when an entry
point that is generated with the file uses it, and a path that is not available when a require
block that is generated with the file declares it (`Compiler.mem_imports_iff`).
-/

namespace Blockwork.Compiler

variable {c : Compiler} {p : Program} {f : SourceFile} {r : Block} {s : Snippet} {path : String}

/-- The code of an entry point that is generated with a program refers to a package by this
name. -/
def RefersIn (c : Compiler) (p : Program) (name : String) : Prop :=
  ∃ root ∈ p.blocks, ∃ entry, c.catalogue.Reaches root entry ∧ entry.IsEntry ∧
    ∃ s, (c.compile entry).outcome = .ok s ∧ name ∈ s.usage.packages

/-- An entry point that is generated with a program uses a path. -/
def UsedIn (c : Compiler) (p : Program) (path : String) : Prop :=
  ∃ name ∈ ImportPath.namesOf c.catalogue.knownNames path, c.RefersIn p name

/-- A require block that is generated with a program declares a path. -/
def DeclaredIn (c : Compiler) (p : Program) (path : String) : Prop :=
  ∃ root ∈ p.blocks, ∃ r, c.catalogue.Reaches root r ∧ c.Declares r path

/-- A require block imports the path that it declares, unless the path is blank or available. -/
theorem imports_of_declares (loaded : c.catalogue.Loaded) (declares : c.Declares r path)
    (made : (c.compile r).outcome = .ok s) (unavailable : path ∉ c.available)
    (shown : Text.isBlankText path = false) : path ∈ s.usage.imports := by
  obtain ⟨kind, child, t, code, slot, generated, stands, reads⟩ := declares
  have present : code ≠ "" := by
    rintro rfl
    have nothing : Source.literalText? "" = none := rfl
    rw [nothing] at reads
    exact nomatch reads
  rw [outcome_of_require loaded kind slot generated stands present reads] at made
  obtain rfl := Except.ok.inj made
  refine Usage.mem_imports_append.mpr (.inl ?_)
  simp [shown, unavailable]

/-- **The imports of a file** are the available paths that its entry points use, and the paths
that are declared by require blocks and neither available nor blank. -/
theorem mem_imports_iff (loaded : c.catalogue.Loaded) (made : c.sourceFile p = .ok f) :
    path ∈ f.imports ↔ (path ∈ c.available ∧ c.UsedIn p path) ∨
      (path ∉ c.available ∧ Text.isBlankText path = false ∧ c.DeclaredIn p path) := by
  rw [mem_imports_sourceFile made]
  constructor
  · rintro ⟨root, standing, s, generated, mem⟩
    obtain ⟨r, t, bs, own, after, reaches, done, whole, accounts, asked⟩ :=
      asked_of_import loaded root s generated path mem
    rcases accounts.asks path asked with ⟨ok, entry, uses⟩ | ⟨unavailable, declares⟩
    · obtain ⟨name, named, refers⟩ := uses
      exact .inl ⟨ok, name, named, root, standing, r, reaches, entry, t, done, whole ▸ refers⟩
    · exact .inr ⟨unavailable, accounts.shown path asked unavailable, root, standing, r, reaches,
        declares⟩
  · rintro (⟨ok, name, named, root, standing, entry, reaches, isEntry, t, done, refers⟩ |
      ⟨unavailable, shown, root, standing, r, reaches, declares⟩)
    · obtain ⟨s, generated⟩ := outcome_of_root made standing
      have asked := imports_of_entry loaded isEntry done ok ⟨name, named, refers⟩
      have within := within_of_reaches loaded reaches generated done
      exact ⟨root, standing, s, generated, within.imports path asked⟩
    · obtain ⟨s, generated⟩ := outcome_of_root made standing
      obtain ⟨t, done, within⟩ := generated_of_reaches loaded reaches generated
      have asked := imports_of_declares loaded declares done unavailable shown
      exact ⟨root, standing, s, generated, within.imports path asked⟩

end Blockwork.Compiler
