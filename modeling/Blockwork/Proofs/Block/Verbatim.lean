import Blockwork.Block.Basic
import Blockwork.Proofs.Catalogue.Loaded

/-!
# Verbatim texts

Three fields of built-in blocks hold code, which stands in the generated code as the user wrote
it: the line of a line block and the handlers of route and handler blocks.
-/

namespace Blockwork

/-- The texts of a block that are code. -/
def Block.verbatim (b : Block) : List String :=
  if b.kind = "go" then [b.textD "line" ""]
  else if b.kind = "route" then [b.textD "handler" ""]
  else if b.kind = "handler" then [b.textD "func" ""]
  else []

/-- What the built-ins that take code from the user take it from. -/
theorem Catalogue.Loaded.builtin_verbatim {c : Catalogue} {b : Block} {blockType : BlockType}
    {k : Builtin} (loaded : c.Loaded) (listed : c.get? b.kind = some ⟨blockType, .builtin k⟩) :
    (k = .line → b.textD "line" "" ∈ b.verbatim) ∧
      (k = .route → b.textD "handler" "" ∈ b.verbatim) ∧
      (k = .handler → b.textD "func" "" ∈ b.verbatim) := by
  have kind : b.kind = k.blockType.id := loaded.id_of_builtin listed rfl
  unfold Block.verbatim
  refine ⟨?_, ?_, ?_⟩
  · rintro rfl
    rw [kind, if_pos (by decide)]
    exact List.mem_singleton_self _
  · rintro rfl
    rw [kind, if_neg (by decide), if_pos (by decide)]
    exact List.mem_singleton_self _
  · rintro rfl
    rw [kind, if_neg (by decide), if_neg (by decide), if_pos (by decide)]
    exact List.mem_singleton_self _

end Blockwork
