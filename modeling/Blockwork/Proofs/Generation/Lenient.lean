import Blockwork.Proofs.Block.Prune
import Blockwork.Proofs.Block.RootOrder
import Blockwork.Proofs.Generation.Agreement
import Blockwork.Proofs.Generation.Blocks

/-!
# Lenient compilation

In lenient mode a block of an unlisted type is passed over, with everything inside it. That is
the same as compiling strictly what is left of the program without such blocks:

* **one block** — `compile_lenient`: a listed block does in lenient mode what its pruned form
  does in strict mode, as an action on any stack, with the same answers and the same failures;
* **the roots** — `snippets_lenient`: unlisted roots leave snippets without code and usage;
* **the file** — `sourceFile_lenient`: the source file is that of the pruned program, or fails
  as it does.
-/

namespace Blockwork

namespace Compiler

variable {c : Compiler} {b : Block}

/-- The compiler in lenient mode. -/
def lenient (c : Compiler) : Compiler := { c with strict := false }

/-- The compiler in strict mode. -/
def strictly (c : Compiler) : Compiler := { c with strict := true }

/-! ### One block -/

theorem compile_lenient_of_unlisted (unlisted : c.catalogue.lists b.kind = false) :
    c.lenient.compile b = pure {} :=
  compile_of_unlisted (c := c.lenient) (Catalogue.lists_eq_false_iff.mp unlisted)

/-- Sequences have the same codes when their listed blocks do. -/
theorem codeOf_lenient {bs : List Block}
    (same : ∀ child ∈ bs, c.catalogue.lists child.kind = true →
      c.lenient.compile child = c.strictly.compile (child.prune c.catalogue)) :
    Holder.codeOf (bs.map c.lenient.compile) =
      Holder.codeOf (((bs.filter fun child => c.catalogue.lists child.kind).map
        (Block.prune c.catalogue)).map c.strictly.compile) := by
  induction bs with
  | nil => rfl
  | cons child rest ih =>
    have others := ih fun other mem => same other (List.mem_cons_of_mem _ mem)
    cases listed : c.catalogue.lists child.kind with
    | true =>
      simp only [List.filter_cons, listed, if_true, List.map_cons]
      rw [Holder.codeOf, Holder.codeOf, others, same child List.mem_cons_self listed]
    | false =>
      simp only [List.filter_cons, listed, Bool.false_eq_true, if_false, List.map_cons]
      rw [Holder.codeOf, compile_lenient_of_unlisted listed, pure_bind, others]
      -- The passed-over block puts the empty text in front of the code of the others.
      have plain : ∀ code : String, ({} : Snippet).code ++ code = code :=
        fun code => String.empty_append
      simp only [plain, bind_pure]

/-- The inputs of a block have the same codes when the listed blocks in them do the same. -/
theorem agrees_prune
    (values : ∀ input child, b.plugged? input = some child →
      c.catalogue.lists child.kind = true →
        c.lenient.compile child = c.strictly.compile (child.prune c.catalogue))
    (statements : ∀ input, ∀ child ∈ b.sequenceIn input,
      c.catalogue.lists child.kind = true →
        c.lenient.compile child = c.strictly.compile (child.prune c.catalogue)) :
    (c.lenient.holder b).Agrees (c.strictly.holder (b.prune c.catalogue)) where
  id := Block.id_prune.symm
  fields := Block.fields_prune.symm
  valueCode := by
    funext input outer
    unfold Holder.valueCode
    rw [get?_holder_values, get?_holder_values, Block.plugged?_prune, block_holder, block_holder,
      Block.id_prune]
    cases found : b.plugged? input with
    | none => rfl
    | some child =>
      rw [Option.map_some, Option.bind_some]
      cases listed : c.catalogue.lists child.kind with
      | true =>
        rw [if_pos rfl, Option.map_some]
        simp only [values input child found listed, Block.id_prune, Block.kind_prune]
      | false =>
        rw [if_neg (by decide), Option.map_none]
        simp only [compile_lenient_of_unlisted listed, pure_bind]
        rfl
  sequenceCode := by
    funext input
    unfold Holder.sequenceCode
    rw [getD_holder_statements, getD_holder_statements, Block.sequenceIn_prune]
    exact codeOf_lenient (statements input)

/-- A listed block does in lenient mode what its pruned form does in strict mode. -/
theorem compile_lenient (listed : c.catalogue.lists b.kind = true) :
    c.lenient.compile b = c.strictly.compile (b.prune c.catalogue) := by
  induction b using Block.induction with
  | step b values statements =>
    obtain ⟨listing, found⟩ := Option.isSome_iff_exists.mp listed
    have found' : c.strictly.catalogue.get? (b.prune c.catalogue).kind = some listing := by
      rw [Block.kind_prune]
      exact found
    rw [compile_of_listed (c := c.lenient) found, compile_of_listed found']
    rw [listing.generator.snippet_congr (agrees_prune values statements)]
    rfl

/-! ### The roots -/

theorem snippets_cons_eq (c : Compiler) (b : Block) (rest : List Block) :
    c.snippets (b :: rest) =
      (c.compile b).outcome.bind fun s => (c.snippets rest).map fun others => s :: others := by
  unfold snippets
  rw [List.mapM_cons]
  cases (c.compile b).outcome with
  | error failure => rfl
  | ok s => cases List.mapM (fun b => (c.compile b).outcome) rest <;> rfl

/-- The snippets that say something, in code or in usage. -/
def sayings (snippets : List Snippet) : List Snippet :=
  snippets.filter fun s => s ≠ {}

theorem map_sayings_cons (s : Snippet) (outcome : Except Failure (List Snippet)) :
    (outcome.map fun others => s :: others).map sayings =
      (outcome.map sayings).map fun others => sayings [s] ++ others := by
  cases outcome with
  | error failure => rfl
  | ok others =>
    show Except.ok (sayings ([s] ++ others)) = Except.ok (sayings [s] ++ sayings others)
    unfold sayings
    rw [List.filter_append]

/-- What the roots say in lenient mode is what those of the pruned program say in strict mode;
and if a root fails, the same failure comes first. -/
theorem snippets_lenient (bs : List Block) :
    (c.lenient.snippets bs).map sayings =
      (c.strictly.snippets ((bs.filter fun b => c.catalogue.lists b.kind).map
        (Block.prune c.catalogue))).map sayings := by
  induction bs with
  | nil => rfl
  | cons b rest ih =>
    rw [snippets_cons_eq]
    cases listed : c.catalogue.lists b.kind with
    | true =>
      simp only [List.filter_cons, listed, if_true, List.map_cons]
      rw [snippets_cons_eq, compile_lenient listed]
      cases (c.strictly.compile (b.prune c.catalogue)).outcome with
      | error failure => rfl
      | ok s =>
        rw [Except.bind, Except.bind, map_sayings_cons, map_sayings_cons, ih]
    | false =>
      simp only [List.filter_cons, listed, Bool.false_eq_true, if_false]
      rw [compile_lenient_of_unlisted listed, ← ih]
      show ((c.lenient.snippets rest).map fun others => {} :: others).map sayings = _
      rw [map_sayings_cons]
      cases c.lenient.snippets rest <;> rfl

theorem imports_sayings (snippets : List Snippet) (start : ImportList) :
    (sayings snippets).foldl (fun imports s => imports.addAll s.usage.imports) start =
      snippets.foldl (fun imports s => imports.addAll s.usage.imports) start := by
  induction snippets generalizing start with
  | nil => rfl
  | cons s rest ih =>
    by_cases silent : s = {}
    · rw [silent]
      exact ih start
    · unfold sayings at ih ⊢
      rw [List.filter_cons_of_pos (by simp [silent]), List.foldl_cons, List.foldl_cons, ih]

theorem sections_sayings (snippets : List Snippet) :
    (sayings snippets).filterMap (fun s => SourceFile.sectionOf s.code) =
      snippets.filterMap fun s => SourceFile.sectionOf s.code := by
  induction snippets with
  | nil => rfl
  | cons s rest ih =>
    by_cases silent : s = {}
    · rw [silent]
      exact ih
    · unfold sayings at ih ⊢
      rw [List.filter_cons_of_pos (by simp [silent]), List.filterMap_cons, List.filterMap_cons, ih]

/-- A snippet that says nothing leaves no trace in the file. -/
theorem ofSnippets_sayings (snippets : List Snippet) :
    SourceFile.ofSnippets (sayings snippets) = SourceFile.ofSnippets snippets := by
  unfold SourceFile.ofSnippets
  rw [imports_sayings, sections_sayings]

theorem map_ofSnippets_sayings (outcome : Except Failure (List Snippet)) :
    (outcome.map sayings).map SourceFile.ofSnippets = outcome.map SourceFile.ofSnippets := by
  cases outcome with
  | error failure => rfl
  | ok snippets => exact congrArg Except.ok (ofSnippets_sayings snippets)

/-! ### The file -/

theorem rootsInOrder_prune (p : Program) (catalogue : Catalogue) :
    (p.prune catalogue).rootsInOrder =
      (p.rootsInOrder.filter fun b => catalogue.lists b.kind).map (Block.prune catalogue) := by
  unfold Program.prune
  rw [Block.pruneSequence_eq]
  have mapped := Program.rootsInOrder_map
    ⟨p.blocks.filter fun b => catalogue.lists b.kind⟩ (Block.prune catalogue)
    fun _ => Block.position_prune
  rw [mapped, Program.rootsInOrder_filter]

/-- **Lenient compilation is strict compilation of what is left.** Whatever the catalogue, the
available paths and the other settings: in lenient mode a program gives the source file that it
gives in strict mode without its blocks of unlisted types, or fails in the same way. -/
theorem sourceFile_lenient (settings : Settings) (catalogue : Catalogue)
    (available : List String) (p : Program) :
    (ofSettings { settings with strict := false } catalogue available).sourceFile p =
      (ofSettings { settings with strict := true } catalogue available).sourceFile
        (p.prune catalogue) := by
  let c := ofSettings settings catalogue available
  show c.lenient.sourceFile p = c.strictly.sourceFile (p.prune catalogue)
  unfold sourceFile
  calc (c.lenient.snippets p.rootsInOrder).map SourceFile.ofSnippets
      = ((c.lenient.snippets p.rootsInOrder).map sayings).map SourceFile.ofSnippets :=
        (map_ofSnippets_sayings _).symm
    _ = ((c.strictly.snippets (p.prune catalogue).rootsInOrder).map sayings).map
          SourceFile.ofSnippets := by
        rw [rootsInOrder_prune]
        exact congrArg _ (snippets_lenient (c := c) p.rootsInOrder)
    _ = (c.strictly.snippets (p.prune catalogue).rootsInOrder).map SourceFile.ofSnippets :=
        map_ofSnippets_sayings _

end Compiler

end Blockwork
