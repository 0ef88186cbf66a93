import Mathlib.Control.Monad.Basic
import Blockwork.Proofs.Generation.Gathering
import Blockwork.Proofs.Source.ReadBack

/-!
# Require blocks

A require block generates no code. It asks for the path that its value reads as, unless the path
is blank or available anyway (`Compiler.outcome_of_require`). A text block writes its text as a
literal, so that a require block with a text asks for what is read back of it: the text itself,
when no character of it is written by its code (`Compiler.asks_for_text_read_back`).
-/

namespace Blockwork.Compiler

variable {c : Compiler} {r child : Block} {s : Snippet} {code path : String}

/-- A require block whose value reads as a path. -/
theorem outcome_of_require (loaded : c.catalogue.Loaded) (kind : r.kind = "require")
    (slot : r.plugged? "VALUE" = some child) (made : (c.compile child).outcome = .ok s)
    (stands : s.inSlot? .atomic = some code) (present : code ≠ "")
    (reads : Source.literalText? code = some path) :
    (c.compile r).outcome = .ok
      { usage :=
          { imports :=
              if Text.isBlankText path || decide (path ∈ c.available) then [] else [path] }
            ++ ({} ++ s.usage) } := by
  have listed : c.catalogue.get? r.kind = some ⟨Builtin.require.blockType, .builtin .require⟩ :=
    kind ▸ loaded.get?_builtin .require (by decide)
  have told : ((c.holder r).valueCode "VALUE" .atomic).Answers {} code ({} ++ s.usage) :=
    valueCode_answers.mpr (.inr ⟨child, s, slot, made, stands, rfl⟩)
  rw [outcome_of_listed listed]
  refine ⟨_, _, (Builtin.require_answers (c.steady_holder r)).mpr
    ⟨code, told, .inr ⟨path, present, reads, rfl⟩⟩, ?_⟩
  have passed : c.surroundings.isAvailable path = decide (path ∈ c.available) := rfl
  rw [passed]
  cases Text.isBlankText path || decide (path ∈ c.available) <;> rfl

/-- A text block writes its text as a literal. -/
theorem outcome_of_text (loaded : c.catalogue.Loaded) (kind : child.kind = "text") :
    (c.compile child).outcome =
      .ok (.expression (Source.quote (child.textD "TEXT" "")) .atomic) := by
  have listed : c.catalogue.get? child.kind = some ⟨Builtin.text.blockType, .builtin .text⟩ :=
    kind ▸ loaded.get?_builtin .text (by decide)
  rw [outcome_of_listed listed]
  exact ⟨_, _, Builtin.text_answers.mpr ⟨rfl, rfl⟩, rfl⟩

/-- **A require block asks for what is read back of its text.** What is read back of the literal
of a text is the text with each control character that has no letter of its own left in the form
`\x..`; it is the text itself exactly when the text has no such character. A require block with
the text, on any stack, asks for what is read back, unless that is blank or available anyway. -/
theorem asks_for_text_read_back (loaded : c.catalogue.Loaded) (text : String) :
    Source.literalText? (Source.quote text) = some (Source.reread text) ∧
      (Source.reread text = text ↔ ∀ ch ∈ text.toList, Source.isCoded ch = false) ∧
      ∀ r t : Block, r.kind = "require" → r.plugged? "VALUE" = some t → t.kind = "text" →
        t.textD "TEXT" "" = text → ∀ frames, ((c.compile r).run frames).1 = .ok
          { usage :=
              { imports :=
                  if Text.isBlankText (Source.reread text) ||
                    decide (Source.reread text ∈ c.available) then []
                  else [Source.reread text] } } := by
  refine ⟨Source.literalText?_quote text, Source.reread_eq_iff, ?_⟩
  intro r t kind slot isText holds frames
  have made := holds ▸ outcome_of_text loaded isText
  have present := Source.quote_ne_empty text
  have stands : (Snippet.expression (Source.quote text) .atomic).inSlot? .atomic =
      some (Source.quote text) := by
    unfold Snippet.inSlot?
    rw [Snippet.code_expression, if_neg fun empty => present (String.isEmpty_iff.mp empty)]
    rfl
  have silent : (Snippet.expression (Source.quote text) .atomic).usage = {} := rfl
  rw [run_fst, outcome_of_require loaded kind slot made stands present
    (Source.literalText?_quote text), silent, Usage.append_empty, Usage.append_empty]

/-- A tab has a letter of its own: a path with a tab in it is asked for as it is. -/
theorem asks_for_text_read_back_of_tab :
    let c : Compiler := { catalogue := .ofBuiltins, available := ["os"] }
    let t : Block := { id := "t", kind := "text", fields := [("TEXT", .text "a\t\"b")] }
    let r : Block := { id := "r", kind := "require", values := [("VALUE", t)] }
    ((c.compile r).run []).1 = .ok { usage := { imports := ["a\t\"b"] } } := by
  intro c t r
  obtain ⟨-, -, asks⟩ := asks_for_text_read_back (c := c) .builtins "a\t\"b"
  have plain : Source.reread "a\t\"b" = "a\t\"b" := by decide
  have asked := asks r t rfl rfl rfl rfl []
  have new : ¬ (Text.isBlankText "a\t\"b" || decide ("a\t\"b" ∈ ["os"])) = true := by decide
  rw [plain, if_neg new] at asked
  exact asked

/-- A control character without a letter of its own does not come back, neither from its literal
nor as the path that a require block asks for. -/
theorem coded_not_read_back :
    let c : Compiler := { catalogue := .ofBuiltins }
    let t : Block := { id := "t", kind := "text", fields := [("TEXT", .text "\x01")] }
    let r : Block := { id := "r", kind := "require", values := [("VALUE", t)] }
    Source.literalText? (Source.quote "\x01") = some "\\x01" ∧
      Source.literalText? (Source.quote "\x01") ≠ some "\x01" ∧
      ((c.compile r).run []).1 = .ok { usage := { imports := ["\\x01"] } } := by
  decide +kernel

end Blockwork.Compiler
