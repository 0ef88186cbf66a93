import Mathlib.Control.Monad.Basic
import Blockwork.Proofs.Block.Texts
import Blockwork.Proofs.Generation.Blocks
import Blockwork.Proofs.Generation.Pairs
import Blockwork.Proofs.Generation.TwinTemplates
import Blockwork.Proofs.Source.TwinTokens

/-!
# Texts stay inside their strings

Two trees that differ only in texts that the code says as strings generate codes that differ
only in what their strings say:

* **one generator** — `Generator.paired_snippet`: on holders whose inputs are generated in
  pairs, a generator runs in pairs, and its snippets are twins;
* **one block** — `Compiler.paired_compile`: by induction over blocks every block does;
* **the tokens** — `Compiler.tokens_without_texts`: so both trees are generated or neither is,
  and the tokens of their codes are the same but for what strings say.
-/

namespace Blockwork

open Source

/-- The snippets are of the same kind and rely on the same packages, and their codes are
twins. -/
structure Snippet.Twins (s s' : Snippet) : Prop where
  order : s.order = s'.order
  code : Source.Twins s.code s'.code
  packages : s.usage.packages = s'.usage.packages

namespace Snippet.Twins

variable {s s' : Snippet} {code code' : String}

theorem empty : Snippet.Twins {} {} := ⟨rfl, .empty, rfl⟩

theorem inLines (twins : Source.Twins code code') :
    Snippet.Twins (.inLines code) (.inLines code') := ⟨rfl, twins, rfl⟩

theorem expression (twins : Source.Twins code code') (order : Precedence) :
    Snippet.Twins (.expression code order) (.expression code' order) := ⟨rfl, twins, rfl⟩

theorem relyingOn (twins : Snippet.Twins s s') (packages : List String) :
    Snippet.Twins (s.relyingOn packages) (s'.relyingOn packages) := by
  refine ⟨twins.order, twins.code, NameSet.ext_mem fun name => ?_⟩
  rw [mem_packages_relyingOn, mem_packages_relyingOn, twins.packages]

/-- What imports are asked for does not matter. -/
theorem asking (twins : Snippet.Twins s s') (paths paths' : List String) :
    Snippet.Twins (s.asking paths) (s'.asking paths') := by
  refine ⟨twins.order, twins.code, ?_⟩
  show (paths.foldl Usage.ask s.usage).packages = (paths'.foldl Usage.ask s'.usage).packages
  rw [Usage.packages_foldl_ask, Usage.packages_foldl_ask, twins.packages]

/-- Twins stand in a slot in the same way, or neither has a place in it. -/
theorem inSlot? (twins : Snippet.Twins s s') (outer : Precedence) :
    (∃ code code', s.inSlot? outer = some code ∧ s'.inSlot? outer = some code' ∧
      Source.Twins code code') ∨ (s.inSlot? outer = none ∧ s'.inSlot? outer = none) := by
  unfold Snippet.inSlot?
  rw [← twins.order, ← twins.code.isEmpty_eq]
  split
  · exact .inl ⟨"", "", rfl, rfl, .empty⟩
  · cases s.order with
    | none => exact .inr ⟨rfl, rfl⟩
    | some order =>
      refine .inl ⟨_, _, rfl, rfl, ?_⟩
      simp only
      split
      · exact .append (.append (.fixed rfl (by decide)) twins.code) (.fixed rfl (by decide))
      · exact twins.code

end Snippet.Twins

/-! ### Frames and inputs -/

theorem Gen.Paired.framed {action action' : Gen Snippet}
    (paired : Paired Snippet.Twins action action') :
    Paired Snippet.Twins (Gen.framed action) (Gen.framed action') := by
  intro frames frames' same
  obtain ⟨alike, left⟩ := paired _ _ (same.push (u := {}) rfl)
  unfold Gen.framed
  rcases run : action ({} :: frames) with ⟨outcome, after⟩
  rcases run' : action' ({} :: frames') with ⟨outcome', after'⟩
  rw [run, run'] at alike left
  cases alike with
  | failures failure failure' => exact ⟨.failures _ _, left.tail⟩
  | @answers s s' twins =>
    have packages : (s.usage ++ after.headD {}).packages =
        (s'.usage ++ after'.headD {}).packages := by
      rw [Usage.packages_append, Usage.packages_append, twins.packages, left.head]
    exact ⟨.answers ⟨twins.order, twins.code, packages⟩, left.tail.addToTop packages⟩

namespace Holder

/-- The holders' blocks differ only in texts that the code says as strings, and their inputs
are generated in pairs. -/
structure Paired (h h' : Holder) : Prop where
  block : h.block.withoutTexts = h'.block.withoutTexts
  valueCode : ∀ input outer, Gen.Paired Twins (h.valueCode input outer) (h'.valueCode input outer)
  sequenceCode : ∀ input, Gen.Paired Twins (h.sequenceCode input) (h'.sequenceCode input)

theorem paired_codeOf {actions actions' : List (Gen Snippet)}
    (paired : List.Forall₂ (Gen.Paired Snippet.Twins) actions actions') :
    Gen.Paired Twins (codeOf actions) (codeOf actions') := by
  induction paired with
  | nil => exact .pure .empty
  | cons first _ ih =>
    exact first.bind fun s s' twins => ih.map fun code code' rest => twins.code.append rest

variable {h h' : Holder} {env : Surroundings}

theorem Paired.indentedCode (paired : h.Paired h')
    (spaces : ∀ ch ∈ env.indent.toList, ch = ' ' ∨ ch = '\t') (input : String) :
    Gen.Paired Twins (h.indentedCode env input) (h'.indentedCode env input) := by
  have plain : ∀ ch ∈ env.indent.toList, IsPlain ch := by
    intro ch mem
    rcases spaces ch mem with rfl | rfl <;> decide
  exact (paired.sequenceCode input).map fun _ _ twins => twins.indent plain

theorem Paired.arguments (paired : h.Paired h') {parameters : List Parameter}
    (words : ∀ p ∈ parameters, Text.isIdentifier p.name = true) :
    Gen.Paired TwinArguments (h.arguments parameters) (h'.arguments parameters) := by
  induction parameters with
  | nil => exact .pure .nil
  | cons p rest ih =>
    have others := ih fun q mem => words q (List.mem_cons_of_mem _ mem)
    refine (paired.valueCode p.name .loosest).bind ?_
    intro value value' twins
    refine others.map ?_
    intro arguments arguments' listed
    rw [twins.isEmpty_eq]
    split
    · exact listed
    · rw [twins.requote_eq, twins.symm.requote_eq]
      exact .cons ⟨rfl, words p List.mem_cons_self, twins⟩ listed

/-! ### Fields -/

/-- The other fields are the same. -/
theorem Paired.textD (paired : h.Paired h') {name : String}
    (other : Block.textField? h.block.kind ≠ some name) (default : String) :
    h'.block.textD name default = h.block.textD name default :=
  (Block.textD_eq_of_withoutTexts paired.block other default).symm

theorem Paired.flagD (paired : h.Paired h') {name : String}
    (other : Block.textField? h.block.kind ≠ some name) (default : Bool) :
    h'.block.flagD name default = h.block.flagD name default := by
  unfold Block.flagD
  rw [Block.scalar?_eq_of_withoutTexts paired.block other]

theorem Paired.numberD (paired : h.Paired h') {name : String}
    (other : Block.textField? h.block.kind ≠ some name) (default : Binary64) :
    h'.block.numberD name default = h.block.numberD name default := by
  unfold Block.numberD
  rw [Block.scalar?_eq_of_withoutTexts paired.block other,
    Block.id_eq_of_withoutTexts paired.block]

theorem Paired.portOf (paired : h.Paired h') (other : Block.textField? h.block.kind ≠ some "port") :
    Builtin.portOf h'.block = Builtin.portOf h.block := by
  unfold Builtin.portOf
  rw [paired.numberD other, Block.id_eq_of_withoutTexts paired.block]

theorem Paired.methodOf (paired : h.Paired h')
    (other : Block.textField? h.block.kind ≠ some "method") :
    Builtin.methodOf h'.block = Builtin.methodOf h.block := by
  unfold Builtin.methodOf
  rw [paired.textD other, Block.id_eq_of_withoutTexts paired.block]

end Holder

/-! ### Generators -/

variable {h h' : Holder} {env : Surroundings}

theorem Surroundings.paired_neededImports (env : Surroundings) (always : List String) :
    Gen.Paired Eq (env.neededImports always) (env.neededImports always) :=
  Gen.Paired.noted.map fun _ _ same => same ▸ rfl

/-- The path that a literal stands for is asked for as an import or passed over, and neither
shows in code and packages. -/
theorem Builtin.paired_requireSnippet (paired : h.Paired h') :
    Gen.Paired Snippet.Twins (requireSnippet env h) (requireSnippet env h') := by
  have asked : ∀ paths paths', Snippet.Twins ((Snippet.inLines "").asking paths)
      ((Snippet.inLines "").asking paths') := (Snippet.Twins.inLines .empty).asking
  refine (paired.valueCode "VALUE" .atomic).bind ?_
  intro value value' twins
  have literal := twins.isSome_literalText?
  rw [twins.isEmpty_eq]
  split
  · exact .pure .empty
  · cases read : literalText? value with
    | none =>
      rw [read] at literal
      rw [Option.isSome_eq_false_iff.mp literal.symm |> Option.isNone_iff_eq_none.mp]
      exact .fail _ _
    | some path =>
      rw [read] at literal
      obtain ⟨path', read'⟩ := Option.isSome_iff_exists.mp literal.symm
      rw [read']
      simp only
      split
      · split
        · exact .pure .empty
        · exact .pure (asked [] [path'])
      · split
        · exact .pure (asked [path] [])
        · exact .pure (asked [path] [path'])

theorem Builtin.paired_serverSnippet (paired : h.Paired h')
    (spaces : ∀ ch ∈ env.indent.toList, ch = ' ' ∨ ch = '\t')
    (other : Block.textField? h.block.kind ≠ some "port") :
    Gen.Paired Snippet.Twins (serverSnippet env h) (serverSnippet env h') := by
  unfold serverSnippet
  rw [paired.portOf other]
  refine (Gen.Paired.lift (.same _)).bind ?_
  intro port _ same
  obtain rfl := same
  refine (paired.indentedCode spaces "children").bind ?_
  intro body body' twins
  refine (Gen.Paired.note _).bind ?_
  intro _ _ _
  refine (env.paired_neededImports ["log"]).map ?_
  intro imports imports' _
  exact (Snippet.Twins.inLines
    (twins_serverCode (.spaces spaces) (.quote _ _) twins)).asking _ _

theorem Builtin.paired_routeSnippet (paired : h.Paired h')
    (spaces : ∀ ch ∈ env.indent.toList, ch = ' ' ∨ ch = '\t')
    (noMethod : Block.textField? h.block.kind ≠ some "method")
    (noHandler : Block.textField? h.block.kind ≠ some "handler")
    (fixed : Twins (h.block.textD "handler" "") (h.block.textD "handler" "")) :
    Gen.Paired Snippet.Twins (routeSnippet env h) (routeSnippet env h') := by
  unfold routeSnippet
  rw [paired.methodOf noMethod, paired.textD noHandler]
  refine (Gen.Paired.lift (.same _)).bind ?_
  intro method _ same
  obtain rfl := same
  refine (paired.indentedCode spaces "sub").bind ?_
  intro inner inner' twins
  refine (Gen.Paired.note _).map ?_
  intro _ _ _
  exact (Snippet.Twins.inLines
    (twins_routeCode (.spaces spaces) (.quote _ _) (.quote _ _) twins fixed.trim)).relyingOn _

theorem Builtin.paired_lineSnippet (paired : h.Paired h')
    (other : Block.textField? h.block.kind ≠ some "line")
    (fixed : Twins (h.block.textD "line" "") (h.block.textD "line" "")) :
    Gen.Paired Snippet.Twins (lineSnippet h) (lineSnippet h') := by
  unfold lineSnippet
  rw [paired.textD other]
  simp only
  split
  · exact .pure .empty
  · refine (Gen.Paired.note _).map ?_
    intro _ _ _
    exact .inLines (fixed.append (.fixed rfl (by decide)))

theorem Builtin.paired_handlerSnippet (paired : h.Paired h')
    (other : Block.textField? h.block.kind ≠ some "func")
    (fixed : Twins (h.block.textD "func" "") (h.block.textD "func" "")) :
    Gen.Paired Snippet.Twins (handlerSnippet h) (handlerSnippet h') := by
  unfold handlerSnippet
  rw [paired.textD other]
  simp only
  split
  · exact .pure .empty
  · refine (Gen.Paired.note _).map ?_
    intro _ _ _
    exact (Snippet.Twins.inLines (twins_handlerCode (.quote _ _) fixed.trim)).relyingOn _

theorem Builtin.paired_numberSnippet (paired : h.Paired h')
    (other : Block.textField? h.block.kind ≠ some "NUM") :
    Gen.Paired Snippet.Twins (numberSnippet h) (numberSnippet h') := by
  unfold numberSnippet
  rw [paired.numberD other]
  refine (Gen.Paired.lift (.same _)).bind ?_
  intro x _ same
  obtain rfl := same
  split
  · rename_i finite
    refine .pure (.expression (.of_plain fun c mem => ?_) _)
    exact isPlain_of_class (Binary64.isNumberMark_of_mem_numberText finite mem) (by decide)
  · exact .fail _ _

theorem Builtin.paired_booleanSnippet (paired : h.Paired h')
    (other : Block.textField? h.block.kind ≠ some "BOOL") :
    Gen.Paired Snippet.Twins (booleanSnippet h) (booleanSnippet h') := by
  unfold booleanSnippet
  rw [paired.flagD other]
  refine .pure (.expression ?_ _)
  split
  · exact .fixed rfl (by decide)
  · exact .fixed rfl (by decide)

/-- A built-in runs in pairs. Code that users enter is the same in both runs, and plain. -/
theorem Builtin.paired_snippet (paired : h.Paired h')
    (spaces : ∀ ch ∈ env.indent.toList, ch = ' ' ∨ ch = '\t') {k : Builtin}
    (kind : h.block.kind = k.blockType.id)
    (line : k = .line → Twins (h.block.textD "line" "") (h.block.textD "line" ""))
    (route : k = .route → Twins (h.block.textD "handler" "") (h.block.textD "handler" ""))
    (handler : k = .handler → Twins (h.block.textD "func" "") (h.block.textD "func" "")) :
    Gen.Paired Snippet.Twins (k.snippet env h) (k.snippet env h') := by
  have other : ∀ name, Block.textField? k.blockType.id ≠ some name →
      Block.textField? h.block.kind ≠ some name := fun _ different => kind ▸ different
  cases k with
  | require => exact paired_requireSnippet paired
  | main =>
    refine (paired.indentedCode spaces "children").bind ?_
    intro body body' twins
    refine (env.paired_neededImports []).map ?_
    intro imports imports' _
    exact (Snippet.Twins.inLines (twins_mainCode twins)).asking _ _
  | server => exact paired_serverSnippet paired spaces (other "port" (by decide))
  | routeGroup =>
    refine (paired.indentedCode spaces "NAME").map ?_
    intro routes routes' twins
    exact (Snippet.Twins.inLines (twins_routeGroupCode (.spaces spaces) twins)).relyingOn _
  | route =>
    exact paired_routeSnippet paired spaces (other "method" (by decide))
      (other "handler" (by decide)) (route rfl)
  | onStart => exact (paired.sequenceCode "NAME").map fun _ _ twins => .inLines twins
  | onShutdown =>
    refine (paired.indentedCode spaces "NAME").map ?_
    intro hooks hooks' twins
    exact (Snippet.Twins.inLines (twins_shutdownCode (.spaces spaces) twins)).relyingOn _
  | line => exact paired_lineSnippet paired (other "line" (by decide)) (line rfl)
  | map =>
    refine (paired.indentedCode spaces "ints").map ?_
    intro entries entries' twins
    exact .expression (twins_mapCode twins) _
  | mapField =>
    refine (paired.valueCode "NAME" .loosest).map ?_
    intro value value' twins
    exact .inLines (twins_mapFieldCode (.quote _ _) twins)
  | handler =>
    change Gen.Paired _ (handlerSnippet h) (handlerSnippet h')
    exact paired_handlerSnippet paired (other "func" (by decide)) (handler rfl)
  | text => exact .pure (.expression (.quote _ _) _)
  | number => exact paired_numberSnippet paired (other "NUM" (by decide))
  | boolean => exact paired_booleanSnippet paired (other "BOOL" (by decide))

theorem CallItem.paired_snippet {item : CallItem} (paired : h.Paired h')
    (faultless : item.fault? = none) :
    Gen.Paired Snippet.Twins (item.snippet h) (item.snippet h') := by
  have words := (PackageItem.isIdentifier_of_fault? faultless).2.2
  refine (paired.arguments words).map ?_
  intro arguments arguments' twins
  exact (Snippet.Twins.inLines (item.twins_code faultless twins)).relyingOn _

theorem LiteralItem.paired_snippet {item : LiteralItem} (paired : h.Paired h')
    (faultless : item.fault? = none) :
    Gen.Paired Snippet.Twins (item.snippet h) (item.snippet h') := by
  have words := (PackageItem.isIdentifier_of_fault? faultless).2.2
  have other : Block.textField? h.block.kind ≠ some addressField := by
    unfold Block.textField?
    repeat' split
    all_goals decide
  unfold snippet
  rw [paired.flagD other]
  refine (paired.arguments words).map ?_
  intro arguments arguments' twins
  exact (Snippet.Twins.expression (item.twins_code _ faultless twins) _).relyingOn _

/-! ### Blocks -/

namespace Compiler

variable {c : Compiler} {b b' : Block}

theorem forall₂_compile {bs bs' : List Block}
    (same : bs.map Block.withoutTexts = bs'.map Block.withoutTexts)
    (paired : ∀ child ∈ bs, ∀ child', child.withoutTexts = child'.withoutTexts →
      Gen.Paired Snippet.Twins (c.compile child) (c.compile child')) :
    List.Forall₂ (Gen.Paired Snippet.Twins) (bs.map c.compile) (bs'.map c.compile) := by
  induction bs generalizing bs' with
  | nil =>
    obtain rfl := List.map_eq_nil_iff.mp same.symm
    exact .nil
  | cons child rest ih =>
    obtain ⟨child', rest', rfl, here, there⟩ := List.map_eq_cons_iff.mp same.symm
    refine .cons (paired child List.mem_cons_self child' here.symm) ?_
    exact ih there.symm fun other mem => paired other (List.mem_cons_of_mem _ mem)

/-- The holders of two blocks are a pair as soon as the blocks in their inputs are. -/
theorem paired_holder (same : b.withoutTexts = b'.withoutTexts)
    (values : ∀ input child, b.plugged? input = some child → ∀ child',
      child.withoutTexts = child'.withoutTexts →
        Gen.Paired Snippet.Twins (c.compile child) (c.compile child'))
    (statements : ∀ input, ∀ child ∈ b.sequenceIn input, ∀ child',
      child.withoutTexts = child'.withoutTexts →
        Gen.Paired Snippet.Twins (c.compile child) (c.compile child')) :
    (c.holder b).Paired (c.holder b') where
  block := same
  valueCode := by
    intro input outer
    have slots : (b.plugged? input).map Block.withoutTexts =
        (b'.plugged? input).map Block.withoutTexts := by
      rw [← Block.plugged?_withoutTexts, ← Block.plugged?_withoutTexts, same]
    unfold Holder.valueCode
    rw [get?_holder_values, get?_holder_values]
    cases found : b.plugged? input with
    | none =>
      rw [found] at slots
      rw [Option.map_eq_none_iff.mp slots.symm]
      exact .pure .empty
    | some child =>
      rw [found] at slots
      obtain ⟨child', found', here⟩ := Option.map_eq_some_iff.mp slots.symm
      rw [found']
      refine (values input child found child' here.symm).bind ?_
      intro s s' twins
      rcases twins.inSlot? outer with ⟨code, code', stands, stands', alike⟩ | ⟨stands, stands'⟩
      · rw [stands, stands']
        exact .pure alike
      · rw [stands, stands']
        exact .fail _ _
  sequenceCode := by
    intro input
    have sequences : (b.sequenceIn input).map Block.withoutTexts =
        (b'.sequenceIn input).map Block.withoutTexts := by
      rw [← Block.sequenceIn_withoutTexts, ← Block.sequenceIn_withoutTexts, same]
    unfold Holder.sequenceCode
    rw [getD_holder_statements, getD_holder_statements]
    exact Holder.paired_codeOf (forall₂_compile sequences (statements input))

/-- Blocks that differ only in texts that the code says as strings are generated in pairs. -/
theorem paired_compile (loaded : c.catalogue.Loaded)
    (spaces : ∀ ch ∈ c.indent.toList, ch = ' ' ∨ ch = '\t')
    (same : b.withoutTexts = b'.withoutTexts)
    (plain : ∀ r, b.Contains r → ∀ text ∈ r.verbatim, ∀ ch ∈ text.toList, IsPlain ch) :
    Gen.Paired Snippet.Twins (c.compile b) (c.compile b') := by
  induction b using Block.induction generalizing b' with
  | step b values statements =>
    have holders : (c.holder b).Paired (c.holder b') := by
      refine paired_holder same (fun input child found child' here => ?_)
        (fun input child mem child' here => ?_)
      · exact values input child found here fun r inside => plain r (.value found inside)
      · exact statements input child mem here fun r inside => plain r (.statement mem inside)
    have kind := Block.kind_eq_of_withoutTexts same
    cases listed : c.catalogue.get? b.kind with
    | none =>
      rw [compile_of_unlisted listed, compile_of_unlisted (kind ▸ listed)]
      split
      · exact .fail _ _
      · exact .pure .empty
    | some listing =>
      rw [compile_of_listed listed, compile_of_listed (kind ▸ listed)]
      refine Gen.Paired.framed ?_
      obtain ⟨blockType, generator⟩ := listing
      cases generator with
      | builtin k =>
        have fixed : ∀ text ∈ b.verbatim, Twins text text := fun text mem =>
          .of_plain (plain b (.self b) text mem)
        have verbatim := loaded.builtin_verbatim listed
        exact Builtin.paired_snippet holders spaces (loaded.id_of_builtin listed rfl)
          (fun line => fixed _ (verbatim.1 line)) (fun route => fixed _ (verbatim.2.1 route))
          (fun handler => fixed _ (verbatim.2.2 handler))
      | call item => exact CallItem.paired_snippet holders (loaded.listed listed).2.2
      | literal item => exact LiteralItem.paired_snippet holders (loaded.listed listed).2.2
      | recipe recipe => exact absurd rfl (loaded.not_recipe listed recipe)

/-- **No text changes the structure of the code.** Let two trees differ only in texts that the
code says as strings, and let the user's code in them have neither quotes nor slashes. Then, on
any stacks and in either mode, both are generated or neither is; and the codes have the same
tokens, but for what strings say, and the same packages. -/
theorem tokens_without_texts (alphabet : Alphabet) (loaded : c.catalogue.Loaded)
    (spaces : ∀ ch ∈ c.indent.toList, ch = ' ' ∨ ch = '\t')
    (same : b.withoutTexts = b'.withoutTexts)
    (plain : ∀ r, b.Contains r → ∀ text ∈ r.verbatim, ∀ ch ∈ text.toList,
      ch ≠ '"' ∧ ch ≠ '\x27' ∧ ch ≠ '\x60' ∧ ch ≠ '/')
    (frames frames' : List Usage) :
    (∃ s s', ((c.compile b).run frames).1 = .ok s ∧ ((c.compile b').run frames').1 = .ok s' ∧
      (tokens alphabet s.code).map Token.withoutValue =
        (tokens alphabet s'.code).map Token.withoutValue ∧
      s.usage.packages = s'.usage.packages) ∨
    (∃ failure failure', ((c.compile b).run frames).1 = .error failure ∧
      ((c.compile b').run frames').1 = .error failure') := by
  have alike := (paired_compile loaded spaces same plain [] [] rfl).1
  have answer : ∀ (b : Block) (frames : List Usage),
      ((c.compile b).run frames).1 = (c.compile b []).1 := by
    intro b frames
    unfold Gen.run
    rw [compile_run c b frames, compile_run c b []]
    cases (c.compile b).outcome <;> rfl
  rw [answer b frames, answer b' frames']
  generalize (c.compile b []).1 = outcome at alike
  generalize (c.compile b' []).1 = outcome' at alike
  cases alike with
  | failures failure failure' => exact .inr ⟨failure, failure', rfl, rfl⟩
  | @answers s s' twins =>
    exact .inl ⟨s, s', rfl, rfl, twins.code.tokens_eq alphabet, twins.packages⟩

/-- A main function that puts a handler under a path. -/
def mainWithHandler (path : String) : Block :=
  { id := "m", kind := "main",
    statements := [("children",
      [{ id := "w", kind := "handler",
         fields := [("func", .text "api.Root"), ("path", .text path)] }])] }

theorem withoutTexts_mainWithHandler (path : String) :
    (mainWithHandler path).withoutTexts = mainWithHandler "" := by
  simp [mainWithHandler, Block.withoutTexts, Block.valuesWithoutTexts,
    Block.statementsWithoutTexts, Block.sequenceWithoutTexts, Block.fieldsWithoutText,
    Block.textField?, Scalar.withoutText]

/-- A path that tries to end its string and to go on with code of its own. -/
theorem tokens_without_texts_of_handler :
    (tokens ⟨Text.isLetter, Text.isNumber⟩
        "func main() \x7b\n\thttp.HandleFunc(\"/\", api.Root)\n\x7d\n").map
          Token.withoutValue =
      (tokens ⟨Text.isLetter, Text.isNumber⟩
        "func main() \x7b\n\thttp.HandleFunc(\"\\\"); evil() //\", api.Root)\n\x7d\n").map
          Token.withoutValue := by
  let c : Compiler := { catalogue := .ofBuiltins }
  have same : (mainWithHandler "/").withoutTexts =
      (mainWithHandler "\"); evil() //").withoutTexts := by
    rw [withoutTexts_mainWithHandler, withoutTexts_mainWithHandler]
  have plain : ∀ r, (mainWithHandler "/").Contains r → ∀ text ∈ r.verbatim,
      ∀ ch ∈ text.toList, ch ≠ '"' ∧ ch ≠ '\x27' ∧ ch ≠ '\x60' ∧ ch ≠ '/' := by
    intro r inside text mem ch part
    have tested : (mainWithHandler "/").everywhere (fun r => r.verbatim.all fun text =>
        text.toList.all fun ch => decide (IsPlain ch)) = true := by decide
    have all := List.all_eq_true.mp (inside.of_everywhere tested) text mem
    exact of_decide_eq_true (List.all_eq_true.mp all ch part)
  have made : ((c.compile (mainWithHandler "/")).run []).1 = .ok
      { code := "func main() \x7b\n\thttp.HandleFunc(\"/\", api.Root)\n\x7d\n"
        usage := { packages := NameSet.ofList ["http", "api"] } } := by decide +kernel
  have made' : ((c.compile (mainWithHandler "\"); evil() //")).run []).1 = .ok
      { code := "func main() \x7b\n\thttp.HandleFunc(\"\\\"); evil() //\", api.Root)\n\x7d\n"
        usage := { packages := NameSet.ofList ["http", "api"] } } := by decide +kernel
  have alike := tokens_without_texts (c := c) ⟨Text.isLetter, Text.isNumber⟩ .builtins
    (Text.forall_mem_of_all (by decide)) same plain [] []
  rcases alike with ⟨s, s', found, found', tokens, -⟩ | ⟨failure, -, failed, -⟩
  · rw [made] at found
    rw [made'] at found'
    obtain rfl := Except.ok.inj found
    obtain rfl := Except.ok.inj found'
    exact tokens
  · rw [made] at failed
    exact nomatch failed

end Compiler

end Blockwork
