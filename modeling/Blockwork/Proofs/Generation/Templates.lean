import Blockwork.Generation.Builtin
import Blockwork.Generation.Item
import Blockwork.Proofs.Package.Item
import Blockwork.Proofs.Source.Passing

/-!
# Templates pass the scanner

Each template of generated code passes when the pieces that fill it do and the packages that it
names itself are allowed.
-/

namespace Blockwork

open Source

variable {allowed : String → Prop} {i code address segment method key value path text : String}

/-! ### Built-in blocks -/

namespace Builtin

theorem passes_mainCode (body : Passes allowed code) : Passes allowed (mainCode code) := by
  unfold mainCode
  refine Passes.append (Passes.append ?_ body) ?_
  · exact Passes.plain rfl (by decide)
  · exact Passes.plain rfl (by decide)

theorem passes_serverCode (spaces : Passes allowed i) (bound : Passes allowed address)
    (body : Passes allowed code) (http : allowed "http") (log : allowed "log")
    (server : allowed "h") : Passes allowed (serverCode i address code) := by
  have inner : Passes allowed (if code.isEmpty then "" else code ++ "\n") := by
    split
    · exact Passes.empty
    · exact body.append (.plain rfl (by decide))
  unfold serverCode
  refine .append (.append (.append (.append (.append (.append (.append (.append ?_ ?_) inner) ?_)
    ?_) ?_) ?_) ?_) ?_
  · exact Passes.plain rfl (by decide)
  · refine .append (.append (.append spaces ?_) bound) ?_
    · exact Passes.fixed ["http"] (by simp [http]) rfl (by decide)
    · exact Passes.plain rfl (by decide)
  · exact spaces.append (Passes.fixed ["http"] (by simp [http]) rfl (by decide))
  · exact spaces.append (Passes.fixed ["h"] (by simp [server]) rfl (by decide))
  · exact spaces.append (.plain rfl (by decide))
  · exact (spaces.append spaces).append (Passes.fixed ["log"] (by simp [log]) rfl (by decide))
  · exact spaces.append (.plain rfl (by decide))
  · exact Passes.plain rfl (by decide)

theorem passes_routeGroupCode (spaces : Passes allowed i) (routes : Passes allowed code)
    (http : allowed "http") : Passes allowed (routeGroupCode i code) := by
  have inner : Passes allowed (if code.isEmpty then "" else s!"{i}path := \"\"\n" ++ code) := by
    split
    · exact Passes.empty
    · exact (spaces.append (.plain rfl (by decide))).append routes
  unfold routeGroupCode
  refine .append (.append ?_ inner) (.plain rfl (by decide))
  exact Passes.fixed ["http", "http"] (by simp [http]) rfl (by decide)

theorem passes_routeCode (spaces : ∀ c ∈ i.toList, c = ' ' ∨ c = '\t')
    (tail : Passes allowed segment) (verb : Passes allowed method)
    (inner : Passes allowed code) (closed : IsClosed text)
    (ok : ∀ name ∈ qualifiers (Text.trim text), allowed name) (strings : allowed "strings")
    (request : allowed "r") :
    Passes allowed (routeCode i segment method code (Text.trim text)) := by
  have leads : Passes allowed i := Passes.spaces spaces
  have returns : Passes allowed s!"{i}return\n" := leads.append (.plain rfl (by decide))
  -- The handler may still be open in its own line, so it passes only together with the next.
  have handled : Passes allowed ((if (Text.trim text).isEmpty then "" else
      s!"{i}{Text.trim text}\n") ++ s!"{i}return\n") := by
    split
    · exact Passes.empty.append returns
    · have line := leads.append (closed.passes_trim_return spaces ok)
      show Passes allowed (i ++ Text.trim text ++ "\n" ++ (i ++ "return\n"))
      simp only [String.append_assoc] at line ⊢
      exact line
  unfold routeCode
  refine .append ?_ (.plain rfl (by decide))
  rw [String.append_assoc]
  refine .append (.append (.append ?_ ?_) inner) handled
  · refine .append (.append (.append (.append ?_ tail) ?_) verb) (.plain rfl (by decide))
    · exact Passes.fixed ["strings", "r"] (by simp [strings, request]) rfl (by decide)
    · exact Passes.fixed ["r"] (by simp [request]) rfl (by decide)
  · refine .append (.append (.append leads ?_) tail) ?_
    · exact Passes.plain rfl (by decide)
    · exact Passes.plain rfl (by decide)

theorem passes_shutdownCode (spaces : Passes allowed i) (hooks : Passes allowed code)
    (ok : ∀ name ∈ ["os", "signal", "log", "context", "time"], allowed name)
    (server : allowed "h") : Passes allowed (shutdownCode i code) := by
  have known : ∀ names : List String,
      names.all (["os", "signal", "log", "context", "time"].contains ·) = true →
        ∀ name ∈ names, allowed name := by
    intro names inside name mem
    exact ok name (List.contains_iff_mem.mp (List.all_eq_true.mp inside name mem))
  unfold shutdownCode
  refine .append (.append (.append (.append (.append (.append (.append (.append (.append (.append
    ?_ ?_) ?_) ?_) ?_) ?_) ?_) ?_) hooks) ?_) ?_
  · exact Passes.fixed ["os"] (known _ (by decide)) rfl (by decide)
  · exact Passes.fixed ["signal", "os"] (known _ (by decide)) rfl (by decide)
  · exact Passes.plain rfl (by decide)
  · exact spaces.append (.plain rfl (by decide))
  · exact spaces.append (Passes.fixed ["log"] (known _ (by decide)) rfl (by decide))
  · exact spaces.append
      (Passes.fixed ["context", "context", "time"] (known _ (by decide)) rfl (by decide +kernel))
  · exact spaces.append (.plain rfl (by decide))
  · exact spaces.append (Passes.fixed ["h"] (by simp [server]) rfl (by decide))
  · exact spaces.append (Passes.fixed ["log"] (known _ (by decide)) rfl (by decide))
  · exact Passes.plain rfl (by decide)

theorem passes_mapCode (entries : Passes allowed code) : Passes allowed (mapCode code) := by
  unfold mapCode
  split
  · exact Passes.plain rfl (by decide)
  · refine .append (.append ?_ entries) ?_
    · exact Passes.plain rfl (by decide)
    · exact Passes.plain rfl (by decide)

theorem isValue_requote (isValue : IsValue allowed value) :
    IsValue allowed (requote value) := by
  unfold requote
  split
  · rename_i inside _
    have quoted : IsValue allowed (quote (String.ofList (resolveEscapes inside))) :=
      (Passes.quote _).isValue
    unfold quote at quoted
    rwa [String.toList_ofList] at quoted
  · exact isValue

theorem passes_mapFieldCode (name : Passes allowed key) (isValue : IsValue allowed value) :
    Passes allowed (mapFieldCode key value) := by
  have filled : IsValue allowed (if value.isEmpty then "nil" else requote value) := by
    split
    · exact isValue_word "nil" (by decide)
    · exact isValue_requote isValue
  have comma : ",\n" = String.singleton ',' ++ "\n" := by decide
  unfold mapFieldCode
  rw [String.append_assoc]
  refine .append (name.append (.plain rfl (by decide))) ?_
  exact filled.before (by decide) comma (.plain rfl (by decide))

theorem passes_handlerCode (place : Passes allowed path) (closed : IsClosed text)
    (ok : ∀ name ∈ qualifiers (Text.trim text), allowed name) (http : allowed "http") :
    Passes allowed (handlerCode path (Text.trim text)) := by
  unfold handlerCode
  rw [String.append_assoc]
  refine .append (.append (.append ?_ place) ?_) (closed.passes_trim_call ok)
  · exact Passes.fixed ["http"] (by simp [http]) rfl (by decide)
  · exact Passes.plain rfl (by decide)

end Builtin

/-! ### Package items -/

variable {arguments : List (Parameter × String)}

theorem CallItem.passes_code {item : CallItem} (faultless : item.fault? = none)
    (ok : allowed item.package) (values : ∀ argument ∈ arguments, IsValue allowed argument.2) :
    Passes allowed (item.code arguments) := by
  obtain ⟨package, name, -⟩ := PackageItem.isIdentifier_of_fault? faultless
  unfold code
  split
  · exact Passes.qualified_before package name ok '\n' (by decide) (by decide)
  · have called : Passes allowed (item.qualifiedName ++ "(") :=
      Passes.qualified_before package name ok '(' (by decide) (by decide)
    have listed : IsValue allowed (Text.joinWith ", " (arguments.map (·.2))) := by
      refine IsValue.joinWith ?_
      intro value mem
      obtain ⟨argument, inside, rfl⟩ := List.mem_map.mp mem
      exact values argument inside
    have closing : ")\n" = String.singleton ')' ++ "\n" := by decide
    have ended := listed.before (by decide) closing (.plain rfl (by decide))
    show Passes allowed (item.qualifiedName ++ "(" ++ _ ++ ")\n")
    rw [String.append_assoc]
    exact called.append ended

theorem LiteralItem.passes_code {item : LiteralItem} {address : Bool}
    (faultless : item.fault? = none) (ok : allowed item.package)
    (named : ∀ argument ∈ arguments, argument.1 ∈ item.parameters)
    (values : ∀ argument ∈ arguments, IsValue allowed argument.2) :
    Passes allowed (item.code address arguments) := by
  obtain ⟨package, name, fields⟩ := PackageItem.isIdentifier_of_fault? faultless
  have sign : Passes allowed (if address then "&" else "") := by
    cases address with
    | false => exact Passes.empty
    | true => exact Passes.plain rfl (by decide)
  have opened : Passes allowed (item.qualifiedName ++ "\x7b") :=
    Passes.qualified_before package name ok '{' (by decide) (by decide)
  have entries : IsValue allowed (Text.joinWith ", "
      (arguments.map fun argument => s!"{argument.1.name}: {argument.2}")) := by
    refine IsValue.joinWith ?_
    intro entry mem
    obtain ⟨⟨field, value⟩, inside, rfl⟩ := List.mem_map.mp mem
    have word := fields field (named _ inside)
    have colon : Passes allowed (field.name ++ ":") :=
      Passes.name_before word ':' (by decide) (by decide)
    have space : Passes allowed " " := Passes.plain rfl (by decide)
    have label : Passes allowed (field.name ++ ": ") := by
      have parts : ": " = ":" ++ " " := by decide
      rw [parts, ← String.append_assoc]
      exact colon.append space
    exact (values _ inside).behind label
  have closing : "\x7d" = String.singleton '}' ++ "" := by decide
  have ended := entries.before (by decide) closing Passes.empty
  have whole := sign.append (opened.append ended)
  show Passes allowed (_ ++ item.qualifiedName ++ "\x7b" ++ _ ++ "\x7d")
  simp only [String.append_assoc] at whole ⊢
  exact whole

end Blockwork
