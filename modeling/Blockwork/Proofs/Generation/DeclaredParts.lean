import Blockwork.Proofs.Block.Declared
import Blockwork.Proofs.Catalogue.Loaded
import Blockwork.Proofs.Generation.Outcomes

/-!
# Only what is declared is generated

The description of a block type and its generator are written separately. They agree on what a
block is made of: what is not declared, at any depth, has no part in the code, and neither have
the identities and the places of blocks. Identities come back in failures, which name the blocks
concerned, and nowhere else.

* **failures** — `Failure.withoutIds` takes the identities out of a failure, `SameButIds` compares
  outcomes up to them;
* **blocks** — `Compiler.run_of_declaredPart`: a tree and what is declared of it.
-/

namespace Blockwork

/-- The failure without the identities of the blocks that it names. -/
def Failure.withoutIds : Failure → Failure
  | missingField _ field => missingField "" field
  | badField _ field fault => badField "" field fault
  | notValue _ kind input _ => notValue "" kind input ""
  | other => other

/-- The outcomes are the same, up to the identities of the blocks that failures name. -/
def SameButIds {α : Type} (outcome outcome' : Except Failure α) : Prop :=
  outcome.mapError Failure.withoutIds = outcome'.mapError Failure.withoutIds

theorem SameButIds.failures {α : Type} {failure failure' : Failure}
    (same : failure.withoutIds = failure'.withoutIds) :
    SameButIds (.error failure : Except Failure α) (.error failure') :=
  congrArg Except.error same

theorem SameButIds.congruence : OutcomeCongruence SameButIds where
  ok _ := rfl
  bind {_ _ outcome outcome' _ _} first rest := by
    cases outcome with
    | ok a =>
      cases outcome' with
      | ok a' =>
        obtain rfl := Except.ok.inj first
        exact rest a
      | error failure' => exact nomatch first
    | error failure =>
      cases outcome' with
      | ok a' => exact nomatch first
      | error failure' => exact .failures (Except.error.inj first)

namespace Compiler

variable {c : Compiler} {b b' : Block}

theorem withoutIds_notValue {child child' : Block} (kind : child'.kind = child.kind)
    (input : String) :
    (Failure.notValue child.id child.kind input b.id).withoutIds =
      (Failure.notValue child'.id child'.kind input b'.id).withoutIds :=
  congrArg (Failure.notValue "" · input "") kind.symm

/-- The inputs of a block and of its declared part are related when the blocks in them are. -/
theorem related_declaredPart (same : b.HasDeclaredPart c.catalogue b') {t : BlockType}
    (declares : ∀ {has : BlockType → String → Bool} {name : String},
      has t name = true → c.catalogue.declares b.kind has name = true)
    (values : ∀ input child, b.plugged? input = some child →
      ∀ {child'}, child.HasDeclaredPart c.catalogue child' →
        Gen.Lifted SameButIds (c.compile child) (c.compile child'))
    (statements : ∀ input, ∀ child ∈ b.sequenceIn input,
      ∀ {child'}, child.HasDeclaredPart c.catalogue child' →
        Gen.Lifted SameButIds (c.compile child) (c.compile child')) :
    Holder.Related (Gen.Lifted SameButIds) t (c.holder b) (c.holder b') where
  scalar? _ declared := same.scalar? (declares declared)
  valueCode input declared := by
    refine related_valueCode (Gen.congruence_lifted SameButIds.congruence) ?_
    have fill : ∀ child child', b.plugged? input = some child →
        child.HasDeclaredPart c.catalogue child' →
          FillAlike (Gen.Lifted SameButIds) c c b b' input child child' := by
      intro child child' found here
      exact ⟨values input child found here, .fail (.failures (withoutIds_notValue here.kind input))⟩
    have slots := same.plugged? (declares declared)
    generalize b.plugged? input = plugged, b'.plugged? input = plugged' at fill slots ⊢
    cases slots with
    | none => exact .none
    | some here => exact .some (fill _ _ rfl here)
  sequenceCode input declared := by
    refine related_sequenceCode (Gen.congruence_lifted SameButIds.congruence) ?_
    have sequences := same.sequenceIn (declares declared)
    refine ((List.forall₂_and_left _ _).mpr ⟨statements input, sequences⟩).imp ?_
    intro child child' alike
    exact alike.1 alike.2
  badField _ _ := .fail (.failures rfl)
  missingField _ := .fail (.failures rfl)

theorem sameButIds_of_declaredPart (loaded : c.catalogue.Loaded)
    (same : b.HasDeclaredPart c.catalogue b') :
    Gen.Lifted SameButIds (c.compile b) (c.compile b') := by
  induction b using Block.induction generalizing b' with
  | step b values statements =>
    have kind := same.kind
    cases listed : c.catalogue.get? b.kind with
    | none =>
      rw [compile_of_unlisted listed, compile_of_unlisted (kind ▸ listed), kind]
      split
      · exact .fail (.failures rfl)
      · exact (Gen.congruence_lifted SameButIds.congruence).pure _
    | some listing =>
      -- A generator reads what its own type declares, and that is what the listing shows.
      have declares : ∀ {has : BlockType → String → Bool} {name : String},
          has listing.generator.blockType name = true →
            c.catalogue.declares b.kind has name = true := fun declared =>
        Catalogue.declares_of_listed listed (loaded.blockType_eq listed ▸ declared)
      exact lifted_of_listed SameButIds.congruence listed (kind ▸ listed) rfl
        (related_declaredPart same declares values statements)

/-- **Only what is declared is generated.** Take from every block of a tree, at any depth, the
fields, slots and inputs that its type does not declare as such, and change the identities and
the places of blocks in any way: in either mode and on any stacks, the block generates the same
snippet, or fails in the same way, up to the identities that the failure names. -/
theorem run_of_declaredPart (loaded : c.catalogue.Loaded)
    (same : b'.anonymous = (b.declaredPart c.catalogue).anonymous) (frames frames' : List Usage) :
    ((c.compile b').run frames').1.mapError Failure.withoutIds =
      ((c.compile b).run frames).1.mapError Failure.withoutIds := by
  have lifted := sameButIds_of_declaredPart loaded same
  rw [run_fst, run_fst]
  exact (lifted.outcome SameButIds.congruence).symm

/-- A server with a line in it, and with a field and an input of which its type knows nothing. -/
def crowdedServer : Block :=
  { id := "s", kind := "server", position := some ⟨.zero, .zero⟩
    fields := [("colour", .text "red"), ("port", .text " 80 ")]
    statements :=
      [("children", [{ id := "g", kind := "go", fields := [("line", .text "serve()")] }]),
        ("hidden", [{ id := "u", kind := "mystery" }])] }

/-- The same server under another name, without them. -/
def plainServer : Block :=
  { id := "t", kind := "server"
    fields := [("port", .text " 80 ")]
    statements :=
      [("children", [{ id := "h", kind := "go", fields := [("line", .text "serve()")] }])] }

/-- The crowded server generates what the plain one does. -/
theorem run_of_declaredPart_of_server :
    plainServer.anonymous = (crowdedServer.declaredPart .ofBuiltins).anonymous ∧
      ((({ catalogue := .ofBuiltins } : Compiler).compile crowdedServer).run []).1 = .ok
        { code := Builtin.serverCode "\t" "\"127.0.0.1:80\"" "\tserve()\n"
          usage := { packages := NameSet.ofList ["http", "log"] } } := by
  let c : Compiler := { catalogue := .ofBuiltins }
  have same : plainServer.anonymous = (crowdedServer.declaredPart .ofBuiltins).anonymous := by
    rfl
  have made : ((c.compile plainServer).run []).1 = .ok
      { code := Builtin.serverCode "\t" "\"127.0.0.1:80\"" "\tserve()\n"
        usage := { packages := NameSet.ofList ["http", "log"] } } := by decide +kernel
  have alike := run_of_declaredPart (c := c) .builtins same [] []
  rw [made] at alike
  refine ⟨same, ?_⟩
  cases crowded : ((c.compile crowdedServer).run []).1 with
  | error failure =>
    rw [crowded] at alike
    exact nomatch alike
  | ok s =>
    rw [crowded] at alike
    exact congrArg Except.ok (Except.ok.inj alike).symm

end Compiler

end Blockwork
