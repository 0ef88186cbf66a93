import Blockwork.Block.Program
import Blockwork.Generation.Compiler
import Blockwork.Import.Needed
import Blockwork.Settings

/-!
# Source files

The Go source file that a program generates. Its roots are compiled one after the other, each on
its own.
The imports of all of them go into one list, and the code of those that are not blank makes the
body, with an empty line between neighbours. As text, the file has a header and the package
clause in front.
-/

namespace Blockwork

/-- A generated source file. -/
structure SourceFile where
  imports : ImportList := {}
  body : String := ""
deriving DecidableEq

namespace SourceFile

/-- The first line of every generated file. -/
def headerLine : String := "// Code generated by goblocks. DO NOT EDIT."

/-- The package clause of every generated file. -/
def packageLine : String := "package main"

/-- The text of a file. -/
def toText (f : SourceFile) (indent : String) : String :=
  let imports := f.imports.declaration indent
  headerLine ++ "\n\n" ++ packageLine ++ "\n\n" ++
    (if imports.isEmpty then "" else imports ++ "\n") ++ f.body

/-- The section of a root in the body, ending with a newline; blank code has none. -/
def sectionOf (code : String) : Option String :=
  if Text.isBlankText code then none
  else if code.toList.getLast? = some '\n' then some code
  else some (code ++ "\n")

/-- The file of what the roots of a program generate. -/
def ofSnippets (snippets : List Snippet) : SourceFile where
  imports := snippets.foldl (fun imports s => imports.addAll s.usage.imports) {}
  body := Text.joinWith "\n" (snippets.filterMap fun s => sectionOf s.code)

end SourceFile

namespace Compiler

/-- The compiler of a session with these settings. -/
def ofSettings (settings : Settings) (catalogue : Catalogue) (available : List String) :
    Compiler where
  catalogue
  available
  indent := settings.indent
  strict := settings.strict

/-- Compiles blocks one after the other, each outside of any other block. -/
def snippets (c : Compiler) (blocks : List Block) : Except Failure (List Snippet) :=
  blocks.mapM fun b => (c.compile b).outcome

/-- The source file of a program. -/
def sourceFile (c : Compiler) (p : Program) : Except Failure SourceFile :=
  (c.snippets p.rootsInOrder).map SourceFile.ofSnippets

/-- The source text of a program. -/
def sourceText (c : Compiler) (p : Program) : Except Failure String :=
  (c.sourceFile p).map fun f => f.toText c.indent

end Compiler

end Blockwork
