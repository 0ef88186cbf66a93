import Mathlib.Control.Monad.Basic
import Blockwork.Proofs.Generation.Gathering

/-!
# Entry points import what they use

Imports get into a usage in two ways only: require blocks ask for paths that are not available,
and entry points ask for the available paths whose packages their code refers to
(`Compiler.origin_of_import`). An entry point asks for all that its whole usage refers to,
although its imports are looked up before that usage is complete
(`Compiler.imports_of_entry`).
-/

namespace Blockwork.Compiler

variable {c : Compiler} {b : Block}

/-- **Entry points import exactly what they use.** When a main function or a server is
generated, an available path is among its imports exactly when one of the path's names is among
its packages; every other import was declared by a require block that was generated with it. -/
theorem entry_imports (loaded : c.catalogue.Loaded) (entry : b.kind = "main" ∨ b.kind = "server")
    {frames : List Usage} {s : Snippet} (made : ((c.compile b).run frames).1 = .ok s) :
    (∀ path ∈ c.available, path ∈ s.usage.imports ↔
      ∃ name ∈ ImportPath.namesOf c.catalogue.knownNames path, name ∈ s.usage.packages) ∧
    ∀ path ∈ s.usage.imports, path ∉ c.available →
      ∃ r, c.catalogue.Reaches b r ∧ r.kind = "require" ∧
        ∃ child t code, r.plugged? "VALUE" = some child ∧ (c.compile child).outcome = .ok t ∧
          t.inSlot? .atomic = some code ∧ Source.literalText? code = some path := by
  have alone := outcome_of_run made
  refine ⟨fun path ok => ⟨fun mem => ?_, imports_of_entry loaded entry alone ok⟩,
    fun path mem other => ?_⟩
  · obtain ⟨r, t, reaches, done, asks⟩ := origin_of_import loaded b s alone path mem
    rcases asks with ⟨-, -, uses⟩ | ⟨unavailable, -⟩
    · exact uses.mono (within_of_reaches loaded reaches alone done)
    · exact absurd ok unavailable
  · obtain ⟨r, t, reaches, -, asks⟩ := origin_of_import loaded b s alone path mem
    rcases asks with ⟨ok, -, -⟩ | ⟨-, declares⟩
    · exact absurd ok other
    · exact ⟨r, reaches, declares⟩

theorem entry_imports_of_main :
    ("fmt" ∈ ["fmt", "example.org/shop"] ↔
      ∃ name ∈ ImportPath.namesOf {} "fmt", name ∈ NameSet.ofList ["fmt"]) ∧
    ("os" ∈ ["fmt", "example.org/shop"] ↔
      ∃ name ∈ ImportPath.namesOf {} "os", name ∈ NameSet.ofList ["fmt"]) := by
  let c : Compiler := { catalogue := .ofBuiltins, available := ["fmt", "os"] }
  let path : Block := { id := "t", kind := "text", fields := [("TEXT", .text "example.org/shop")] }
  let b : Block :=
    { id := "m", kind := "main",
      statements := [("children",
        [{ id := "r", kind := "require", values := [("VALUE", path)] },
          { id := "g", kind := "go", fields := [("line", .text "fmt.Println()")] }])] }
  have made : ((c.compile b).run []).1 = .ok
      { code := "func main() \x7b\n\tfmt.Println()\n\x7d\n"
        usage :=
          { packages := NameSet.ofList ["fmt"], imports := ["fmt", "example.org/shop"] } } := by
    decide +kernel
  have imports := (entry_imports .builtins (.inl rfl) made).1
  exact ⟨imports "fmt" (by decide), imports "os" (by decide)⟩

end Blockwork.Compiler
