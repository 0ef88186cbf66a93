import Mathlib.Control.Monad.Basic
import Blockwork.Proofs.Decimal.NumberText
import Blockwork.Proofs.Generation.Composed
import Blockwork.Proofs.Generation.TwinTemplates
import Blockwork.Proofs.Source.BracketTokens

/-!
# Generated code is lexically well formed

Each template closes the brackets that it opens, and what fills it cannot change that: names and
numbers have no brackets, texts stand in string literals, and the user's code is balanced by
itself. So by induction over how code is put together (`Composed`) all generated code is nested
(`Composed.isNested`): its strings end in their lines, and its brackets are balanced.
-/

namespace Blockwork

open Source

variable {i code address segment method key value path text : String}

/-! ### Plain pieces -/

theorem isNested_of_isIdentifier {name : String} (word : Text.isIdentifier name = true) :
    IsNested name := by
  refine .of_no_bracket fun c mem => ⟨isPlain_of_isIdentifier word c mem, ?_⟩
  exact not_isBracket_of_class (Text.isWordPart_of_mem word mem) (by decide)

theorem isNested_numberText {x : Binary64} (finite : x.isFinite = true) :
    IsNested x.numberText := by
  refine .of_no_bracket fun c mem => ?_
  have mark := Binary64.isNumberMark_of_mem_numberText finite mem
  exact ⟨isPlain_of_class mark (by decide), not_isBracket_of_class mark (by decide)⟩

/-! ### Built-in blocks -/

namespace Builtin

theorem isNested_mainCode (body : IsNested code) : IsNested (mainCode code) :=
  body.between '{' rfl rfl (by decide)

theorem isNested_serverCode (spaces : IsNested i) (bound : IsNested address)
    (body : IsNested code) : IsNested (serverCode i address code) := by
  have server : IsNested s!"{i}h := &http.Server\x7bAddr: {address}\x7d\n\n" := by
    have made : IsNested ("h := &http.Server\x7bAddr: " ++ address ++ "\x7d\n\n") :=
      bound.between '{' rfl rfl (by decide)
    have line := spaces.append made
    rwa [← String.append_assoc, ← String.append_assoc] at line
  have inner : IsNested (if code.isEmpty then "" else code ++ "\n") := by
    split
    · exact .empty
    · exact body.append (.fixed rfl (by decide))
  have handle : IsNested s!"{i}http.HandleFunc(\"/\", apiHandler)\n\n" :=
    spaces.append
      (.fixed_around "http.HandleFunc(" "/" ", apiHandler)\n\n" rfl rfl rfl rfl (by decide))
  have serve : IsNested s!"{i}err := h.ListenAndServe()\n" :=
    spaces.append (.fixed rfl (by decide))
  have report : IsNested s!"{i}{i}log.Println(err)\n" :=
    (spaces.append spaces).append (.fixed rfl (by decide))
  intro opened
  have function : Leads opened "func main() \x7b\n" ('{' :: opened) :=
    .fixed [] ['{'] rfl (by decide)
  have test : Leads ('{' :: opened) s!"{i}if err != nil \x7b\n" ('{' :: '{' :: opened) :=
    (spaces _).append (.fixed [] ['{'] rfl (by decide))
  have done : Leads ('{' :: '{' :: opened) s!"{i}\x7d\n" ('{' :: opened) :=
    (spaces _).append (.fixed ['{'] [] rfl (by decide))
  have last : Leads ('{' :: opened) "\x7d\n" opened := .fixed ['{'] [] rfl (by decide)
  exact (((((((function.append (server _)).append (inner _)).append (handle _)).append
    (serve _)).append test).append (report _)).append done).append last

theorem isNested_routeGroupCode (spaces : IsNested i) (routes : IsNested code) :
    IsNested (routeGroupCode i code) := by
  have inner : IsNested (if code.isEmpty then "" else s!"{i}path := \"\"\n" ++ code) := by
    split
    · exact .empty
    · have start : IsNested s!"{i}path := \"\"\n" :=
        spaces.append (.fixed_around "path := " "" "\n" rfl rfl rfl rfl (by decide))
      exact start.append routes
  exact inner.between '{' rfl rfl (by decide)

theorem isNested_routeCode (spaces : IsNested i) (tail : IsNested segment)
    (verb : IsNested method) (inner : IsNested code) (handler : IsNested text) :
    IsNested (routeCode i segment method code text) := by
  have extend : IsNested s!"{i}path = path + {segment}\n" :=
    ((spaces.append (.fixed rfl (by decide))).append tail).append (.fixed rfl (by decide))
  have handled : IsNested (if text.isEmpty then "" else s!"{i}{text}\n") := by
    split
    · exact .empty
    · exact (spaces.append handler).append (.fixed rfl (by decide))
  have leave : IsNested s!"{i}return\n" := spaces.append (.fixed rfl (by decide))
  have asked : IsNested s!"if strings.HasPrefix(r.URL.Path, path+{segment}) && r.Method == " :=
    tail.between '(' rfl rfl (by decide)
  intro opened
  have test : Leads opened
      s!"if strings.HasPrefix(r.URL.Path, path+{segment}) && r.Method == {method} \x7b\n"
      ('{' :: opened) :=
    ((asked _).append (verb _)).append (.fixed [] ['{'] rfl (by decide))
  exact ((((test.append (extend _)).append (inner _)).append (handled _)).append
    (leave _)).append (.fixed ['{'] [] rfl (by decide))

theorem isNested_shutdownCode (spaces : IsNested i) (hooks : IsNested code) :
    IsNested (shutdownCode i code) := by
  have channel : IsNested "stop := make(chan os.Signal, 1)\n" := .fixed rfl (by decide)
  have signal : IsNested "signal.Notify(stop, os.Interrupt)\n\n" := .fixed rfl (by decide)
  have wait : IsNested s!"{i}<-stop\n" := spaces.append (.fixed rfl (by decide))
  have start : IsNested s!"{i}log.Println(\"Shutting down the server...\")\n\n" :=
    spaces.append
      (.fixed_around "log.Println(" "Shutting down the server..." ")\n\n" rfl rfl rfl rfl
        (by decide))
  have limit : IsNested
      s!"{i}ctx, cancel := context.WithTimeout(context.Background(), 5*time.Second)\n" :=
    spaces.append (.fixed rfl (by decide))
  have cancel : IsNested s!"{i}defer cancel()\n" := spaces.append (.fixed rfl (by decide))
  have stop : IsNested s!"{i}h.Shutdown(ctx)\n\n" := spaces.append (.fixed rfl (by decide))
  have finish : IsNested s!"{i}log.Println(\"Server gracefully stopped\")\n" :=
    spaces.append
      (.fixed_around "log.Println(" "Server gracefully stopped" ")\n" rfl rfl rfl rfl (by decide))
  intro opened
  have function : Leads opened "go func() \x7b\n" ('{' :: opened) :=
    .fixed [] ['{'] rfl (by decide)
  exact (((((((((((channel _).append (signal _)).append function).append (wait _)).append
    (start _)).append (limit _)).append (cancel _)).append (stop _)).append (hooks _)).append
    (finish _)).append (.fixed ['{'] [] rfl (by decide)))

theorem isNested_mapCode (entries : IsNested code) : IsNested (mapCode code) := by
  unfold mapCode
  split
  · exact .fixed rfl (by decide)
  · exact entries.between '{' rfl rfl (by decide)

theorem isNested_mapFieldCode (name : IsNested key) (filled : IsNested value) :
    IsNested (mapFieldCode key value) := by
  unfold mapFieldCode
  refine .append (.append (name.append (.fixed rfl (by decide))) ?_) (.fixed rfl (by decide))
  split
  · exact .fixed rfl (by decide)
  · exact filled.requote

theorem isNested_handlerCode (place : IsNested path) (handler : IsNested text) :
    IsNested (handlerCode path text) := by
  intro opened
  have called : Leads opened s!"http.HandleFunc({path}, " ('(' :: opened) :=
    ((Leads.fixed [] ['('] rfl (by decide)).append (place _)).append (.fixed [] [] rfl (by decide))
  exact (called.append (handler _)).append (.fixed ['('] [] rfl (by decide))

end Builtin

/-! ### Package items -/

variable {arguments : List (Parameter × String)}

theorem PackageItem.isNested_qualifiedName {item : PackageItem} (faultless : item.fault? = none) :
    IsNested item.qualifiedName := by
  obtain ⟨package, name, -⟩ := PackageItem.isIdentifier_of_fault? faultless
  have dot : IsNested "." := .fixed rfl (by decide)
  exact ((isNested_of_isIdentifier package).append dot).append (isNested_of_isIdentifier name)

theorem CallItem.isNested_code {item : CallItem} (faultless : item.fault? = none)
    (values : ∀ argument ∈ arguments, IsNested argument.2) :
    IsNested (item.code arguments) := by
  have name := PackageItem.isNested_qualifiedName faultless
  unfold code
  split
  · exact name.append (.fixed rfl (by decide))
  · have listed : IsNested (Text.joinWith ", " (arguments.map (·.2))) := by
      refine .joinWith ?_ (.fixed rfl (by decide))
      exact List.forall_mem_map.mpr values
    intro opened
    have start : Leads opened "(" ('(' :: opened) := .fixed [] ['('] rfl (by decide)
    exact (((name _).append start).append (listed _)).append (.fixed ['('] [] rfl (by decide))

theorem LiteralItem.isNested_code {item : LiteralItem} (address : Bool)
    (faultless : item.fault? = none)
    (named : ∀ argument ∈ arguments, argument.1 ∈ item.parameters)
    (values : ∀ argument ∈ arguments, IsNested argument.2) :
    IsNested (item.code address arguments) := by
  have name := PackageItem.isNested_qualifiedName faultless
  have words := (PackageItem.isIdentifier_of_fault? faultless).2.2
  have sign : IsNested (if address then "&" else "") := by
    cases address with
    | false => exact .empty
    | true => exact .fixed rfl (by decide)
  have entries : IsNested (Text.joinWith ", "
      (arguments.map fun argument => s!"{argument.1.name}: {argument.2}")) := by
    refine .joinWith (List.forall_mem_map.mpr fun argument mem => ?_) (.fixed rfl (by decide))
    have field := isNested_of_isIdentifier (words _ (named argument mem))
    exact (field.append (.fixed rfl (by decide))).append (values argument mem)
  intro opened
  have start : Leads opened "\x7b" ('{' :: opened) := .fixed [] ['{'] rfl (by decide)
  exact ((((sign _).append (name _)).append start).append (entries _)).append
    (.fixed ['{'] [] rfl (by decide))

/-! ### Composed code -/

/-- Composed code is nested when the user's code in it is plain and balanced. -/
theorem Composed.isNested {verbatim : String → Prop} (composed : Composed i verbatim code)
    (spaces : ∀ c ∈ i.toList, c = ' ' ∨ c = '\t')
    (plain : ∀ text, verbatim text → ∀ c ∈ text.toList, IsPlain c)
    (balanced : ∀ text, verbatim text → Balanced text.toList) : IsNested code := by
  have leads : IsNested i := .spaces spaces
  have trimmed : ∀ text, verbatim text → IsNested (Text.trim text) :=
    fun text entered => .trim_of_plain (plain text entered) (balanced text entered)
  induction composed with
  | empty => exact .empty
  | append _ _ first second => exact first.append second
  | indented _ inner => exact inner.indent spaces
  | bracketed _ inner => exact inner.between '(' rfl rfl (by decide)
  | main _ inner => exact Builtin.isNested_mainCode inner
  | server address _ inner => exact Builtin.isNested_serverCode leads (.quote _) inner
  | routeGroup _ inner => exact Builtin.isNested_routeGroupCode leads inner
  | route path method _ entered inner =>
    exact Builtin.isNested_routeCode leads (.quote _) (.quote _) inner (trimmed _ entered)
  | shutdown _ inner => exact Builtin.isNested_shutdownCode leads inner
  | line entered =>
    exact .append (.of_plain (plain _ entered) (balanced _ entered)) (.fixed rfl (by decide))
  | map _ inner => exact Builtin.isNested_mapCode inner
  | mapField key _ inner => exact Builtin.isNested_mapFieldCode (.quote _) inner
  | handler path entered => exact Builtin.isNested_handlerCode (.quote _) (trimmed _ entered)
  | text text => exact .quote _
  | number finite => exact isNested_numberText finite
  | boolean truth => cases truth <;> exact .fixed rfl (by decide)
  | call faultless _ values =>
    exact CallItem.isNested_code faultless
      (List.forall_mem_map.mpr fun argument mem => (values argument mem).requote)
  | literal address faultless named _ values =>
    exact LiteralItem.isNested_code address faultless (List.forall_mem_map.mpr named)
      (List.forall_mem_map.mpr fun argument mem => (values argument mem).requote)

/-! ### Blocks -/

namespace Compiler

variable {c : Compiler} {b : Block}

/-- **Generated code is lexically well formed.** Let the user's code have neither quotes nor
slashes and be balanced by itself. Then whatever stands on the stack and in either mode, when a
block generates code, every literal among its tokens is an interpreted string that ends in the
line in which it begins, and the brackets of the tokens are properly nested and all closed. -/
theorem tokens_wellFormed (alphabet : Alphabet) (loaded : c.catalogue.Loaded)
    (spaces : ∀ ch ∈ c.indent.toList, ch = ' ' ∨ ch = '\t')
    (plain : ∀ r, b.Contains r → ∀ text ∈ r.verbatim, ∀ ch ∈ text.toList,
      ch ≠ '"' ∧ ch ≠ '\x27' ∧ ch ≠ '\x60' ∧ ch ≠ '/')
    (balanced : ∀ r, b.Contains r → ∀ text ∈ r.verbatim, Balanced text.toList)
    {frames : List Usage} {s : Snippet} (made : ((c.compile b).run frames).1 = .ok s) :
    (∀ token ∈ tokens alphabet s.code, token.EndsInLine) ∧
      Balanced (bracketsOf (tokens alphabet s.code)) := by
  have composed : Composed c.indent
      (fun text => (∀ ch ∈ text.toList, IsPlain ch) ∧ Balanced text.toList) s.code :=
    composed loaded b
      (fun r inside text mem => ⟨plain r inside text mem, balanced r inside text mem⟩)
      s (outcome_of_run made)
  exact (composed.isNested spaces (fun _ => And.left) (fun _ => And.right)).tokens alphabet

/-- A path that tries to end its string and to close the call, and a line with brackets. -/
theorem tokens_wellFormed_of_handler :
    let alphabet : Alphabet := ⟨Text.isLetter, Text.isNumber⟩
    let code := "func main() \x7b\n\thttp.HandleFunc(\"\\\")\", api.Root)\n\tgo f([0])\n\x7d\n"
    (∀ token ∈ tokens alphabet code, token.EndsInLine) ∧
      Balanced (bracketsOf (tokens alphabet code)) := by
  intro alphabet code
  let c : Compiler := { catalogue := .ofBuiltins }
  let b : Block :=
    { id := "m", kind := "main",
      statements := [("children",
        [{ id := "w", kind := "handler",
           fields := [("func", .text " api.Root"), ("path", .text "\")")] },
         { id := "g", kind := "go", fields := [("line", .text "go f([0])")] }])] }
  have tested : b.everywhere (fun r => r.verbatim.all fun text =>
      (text.toList.all fun ch => decide (IsPlain ch)) && decide (Balanced text.toList)) = true := by
    decide
  have entered : ∀ r, b.Contains r → ∀ text ∈ r.verbatim,
      (∀ ch ∈ text.toList, IsPlain ch) ∧ Balanced text.toList := by
    intro r inside text mem
    have here := List.all_eq_true.mp (inside.of_everywhere tested) text mem
    rw [Bool.and_eq_true] at here
    exact ⟨Text.forall_mem_of_all here.1, of_decide_eq_true here.2⟩
  have made : ((c.compile b).run []).1 = .ok
      { code, usage := { packages := NameSet.ofList ["http", "api"] } } := by decide +kernel
  have formed := tokens_wellFormed alphabet .builtins (Text.forall_mem_of_all (by decide))
    (fun r inside text mem => (entered r inside text mem).1)
    (fun r inside text mem => (entered r inside text mem).2) made
  exact formed

end Compiler

end Blockwork
