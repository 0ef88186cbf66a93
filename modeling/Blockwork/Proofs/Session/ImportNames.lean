import Blockwork.Proofs.Generation.ImportOrigins
import Blockwork.Session.Program

/-!
# Imports under one name

Imports are collected by path, and code refers to packages by name. Two imports share a name only
if the selection or the require blocks bring two such paths along (`Session.imports_apart`). But
then nothing keeps them apart: as soon as an entry point refers to a name, every available path of
that name is imported.
-/

namespace Blockwork

/-- There is a name by which code may refer to the packages of both paths. -/
def ImportPath.ShareName (known : NameMap NameSet) (a b : String) : Prop :=
  ∃ name ∈ namesOf known a, name ∈ namesOf known b

instance (known : NameMap NameSet) (a b : String) : Decidable (ImportPath.ShareName known a b) :=
  inferInstanceAs (Decidable (∃ name ∈ _, name ∈ _))

namespace Session

variable {s : Session} {p : Program} {f : SourceFile}

/-- The path is available in the session, or a require block of the program declares it. -/
def Offers (s : Session) (p : Program) (path : String) : Prop :=
  path ∈ s.available ∨ s.compiler.DeclaredIn p path

theorem offers_of_mem_imports (loaded : s.catalogue.Loaded)
    (made : s.compiler.sourceFile p = .ok f) {path : String} (mem : path ∈ f.imports) :
    s.Offers p path := by
  rcases (Compiler.mem_imports_iff loaded made).mp mem with ⟨ok, -⟩ | ⟨-, -, declared⟩
  · exact .inl ok
  · exact .inr declared

theorem mem_imports_of_refers (loaded : s.catalogue.Loaded)
    (made : s.compiler.sourceFile p = .ok f) {path name : String} (ok : path ∈ s.available)
    (named : name ∈ ImportPath.namesOf s.catalogue.knownNames path)
    (refers : s.compiler.RefersIn p name) : path ∈ f.imports :=
  (Compiler.mem_imports_iff loaded made).mpr (.inl ⟨ok, name, named, refers⟩)

/-- A program without require blocks is offered what its session has available. -/
theorem offers_of_no_require
    (none : ∀ root ∈ p.blocks, root.everywhere (fun b => decide (b.kind ≠ "require")) = true)
    {path : String} : s.Offers p path ↔ path ∈ s.available := by
  refine or_iff_left ?_
  rintro ⟨root, mem, r, reaches, kind, -⟩
  exact of_decide_eq_true (reaches.contains.of_everywhere (none root mem)) kind

/-- **Imports of one name come from the selection or from require blocks.** In a file that a
session compiles:

* if no two paths that are available or declared by require blocks share a name, no two imports
  do;
* two available paths that share a name are both imported as soon as an entry point refers to
  that name;
* what a require block declares is imported by whatever name, unless it is blank or available. -/
theorem imports_apart (loaded : s.catalogue.Loaded) (made : s.compiler.sourceFile p = .ok f) :
    ((∀ a b, s.Offers p a → s.Offers p b → a ≠ b →
        ¬ ImportPath.ShareName s.catalogue.knownNames a b) →
      ∀ a ∈ f.imports, ∀ b ∈ f.imports, a ≠ b →
        ¬ ImportPath.ShareName s.catalogue.knownNames a b) ∧
    (∀ a ∈ s.available, ∀ b ∈ s.available,
      ∀ name ∈ ImportPath.namesOf s.catalogue.knownNames a,
        name ∈ ImportPath.namesOf s.catalogue.knownNames b → s.compiler.RefersIn p name →
          a ∈ f.imports ∧ b ∈ f.imports) ∧
    ∀ path ∉ s.available, Text.isBlankText path = false → s.compiler.DeclaredIn p path →
      path ∈ f.imports := by
  refine ⟨?_, ?_, ?_⟩
  · intro apart a first b second
    exact apart a b (offers_of_mem_imports loaded made first)
      (offers_of_mem_imports loaded made second)
  · intro a here b there name first second refers
    exact ⟨mem_imports_of_refers loaded made here first refers,
      mem_imports_of_refers loaded made there second refers⟩
  · intro path unavailable shown declared
    exact (Compiler.mem_imports_iff loaded made).mpr (.inr ⟨unavailable, shown, declared⟩)

/-- A main function of one line. -/
def mainOf (line : String) : Program :=
  ⟨[{ id := "m", kind := "main",
      statements := [("children", [{ id := "g", kind := "go", fields := [("line", .text line)] }])] }]⟩

/-- The file of a line that refers to `template`, in a session that knows two paths of that name. -/
theorem sourceFile_mainOf_template :
    let s : Session := { selection := ⟨["text/template", "html/template"], by decide⟩ }
    s.compiler.sourceFile (mainOf "template.New()") =
      .ok { imports := ⟨["text/template", "html/template"], by decide⟩
            body := "func main() \x7b\n\ttemplate.New()\n\x7d\n" } := by
  intro s
  rw [Compiler.sourceFile_of_sorted (by decide)]
  decide +kernel

/-- The file of a line that refers to two packages, in a session that knows one path for each. -/
theorem sourceFile_mainOf_two :
    let s : Session := { selection := ⟨["fmt", "net/http"], by decide⟩ }
    s.compiler.sourceFile (mainOf "fmt.Println(http.StatusOK)") =
      .ok { imports := ⟨["fmt", "net/http"], by decide⟩
            body := "func main() \x7b\n\tfmt.Println(http.StatusOK)\n\x7d\n" } := by
  intro s
  rw [Compiler.sourceFile_of_sorted (by decide)]
  decide +kernel

/-- No two of these paths share a name, and the program declares none of its own. -/
theorem imports_apart_of_two :
    let s : Session := { selection := ⟨["fmt", "net/http"], by decide⟩ }
    ∃ f, s.compiler.sourceFile (mainOf "fmt.Println(http.StatusOK)") = .ok f ∧
      "fmt" ∈ f.imports ∧ "net/http" ∈ f.imports ∧
      ∀ a ∈ f.imports, ∀ b ∈ f.imports, a ≠ b →
        ¬ ImportPath.ShareName s.catalogue.knownNames a b := by
  intro s
  refine ⟨_, sourceFile_mainOf_two, by decide, by decide,
    (imports_apart (s := s) .builtins sourceFile_mainOf_two).1 fun a b first second => ?_⟩
  have apart : ∀ a ∈ s.available, ∀ b ∈ s.available, a ≠ b →
      ¬ ImportPath.ShareName s.catalogue.knownNames a b := by
    decide
  have offered : ∀ {path}, s.Offers (mainOf "fmt.Println(http.StatusOK)") path →
      path ∈ s.available := (offers_of_no_require (by decide)).mp
  exact apart a (offered first) b (offered second)

/-- Both paths of a name are imported. -/
theorem imports_share_name :
    let s : Session := { selection := ⟨["text/template", "html/template"], by decide⟩ }
    ∃ f, s.compiler.sourceFile (mainOf "template.New()") = .ok f ∧
      "text/template" ∈ f.imports ∧ "html/template" ∈ f.imports ∧
      ImportPath.ShareName s.catalogue.knownNames "text/template" "html/template" := by
  intro s
  exact ⟨_, sourceFile_mainOf_template, by decide, by decide, by decide⟩

end Session

end Blockwork
