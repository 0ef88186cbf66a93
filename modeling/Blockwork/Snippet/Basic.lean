import Blockwork.Collection.Distinct
import Blockwork.Collection.NameSet
import Blockwork.Snippet.Precedence

/-!
# Generated snippets

What a block generates: its code, how tightly it binds when it is an expression, and what the
code depends on. A `Usage` collects the packages that occur as qualifiers and the imports that
were asked for by path, the latter in the order in which they first turned up. Usages are put
together by `++`, an ordered union: it has the empty usage as its unit on the right
(`append_empty`) and is associative (`append_assoc`).
-/

namespace Blockwork

/-- What generated code depends on. -/
structure Usage where
  packages : NameSet := .empty
  imports : List String := []
deriving DecidableEq, Inhabited

namespace Usage

/-- Both usages together; imports of the second that are new follow those of the first. -/
protected def append (a b : Usage) : Usage where
  packages := a.packages.union b.packages
  imports := appendNew a.imports b.imports

instance : Append Usage := ⟨Usage.append⟩

/-- Notes a package as used. -/
def note (u : Usage) (package : String) : Usage :=
  { u with packages := u.packages.insert package }

/-- Asks for an import, unless it was asked for before. -/
def ask (u : Usage) (path : String) : Usage :=
  { u with imports := addNew u.imports path }

@[simp] theorem packages_append (a b : Usage) :
    (a ++ b).packages = a.packages.union b.packages := rfl

@[simp] theorem append_empty (u : Usage) : u ++ ({} : Usage) = u := rfl

/-- Two usages with the same packages and the same imports in the same order are equal. -/
theorem ext_parts {a b : Usage} (packages : a.packages = b.packages)
    (imports : a.imports = b.imports) : a = b := by
  cases a; cases b; simp_all

theorem append_assoc (a b c : Usage) : a ++ b ++ c = a ++ (b ++ c) := by
  apply ext_parts
  · apply NameSet.ext_mem
    intro name
    simp only [packages_append, NameSet.mem_union]
    rw [or_assoc]
  · show appendNew (appendNew a.imports b.imports) c.imports = _
    exact appendNew_assoc _ _ _

end Usage

/-- The code that a block generates. -/
structure Snippet where
  code : String := ""
  /-- How tightly the code binds; only expressions have this. -/
  order : Option Precedence := none
  usage : Usage := {}
deriving DecidableEq, Inhabited

namespace Snippet

/-- Code that stands in lines of its own, as statements and declarations do. -/
def inLines (code : String) : Snippet := { code }

/-- Code that is an expression. -/
def expression (code : String) (order : Precedence) : Snippet := { code, order := some order }

/-- Whether the code is an expression. -/
def isExpression (s : Snippet) : Bool := s.order.isSome

/-- Notes packages that the code uses. -/
def relyingOn (s : Snippet) (packages : List String) : Snippet :=
  { s with usage := packages.foldl Usage.note s.usage }

/-- Asks for imports that the code needs. -/
def asking (s : Snippet) (paths : List String) : Snippet :=
  { s with usage := paths.foldl Usage.ask s.usage }

end Snippet

end Blockwork
