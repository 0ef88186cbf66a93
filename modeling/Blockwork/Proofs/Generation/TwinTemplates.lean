import Mathlib.Data.List.Forall2
import Blockwork.Generation.Builtin
import Blockwork.Generation.Item
import Blockwork.Proofs.Decimal.NumberText
import Blockwork.Proofs.Package.Item
import Blockwork.Proofs.Source.Twins

/-!
# Templates keep twins

Each template of generated code makes twins of twins: what stands in it besides its pieces is
plain, or a string literal of its own.
-/

namespace Blockwork

open Source

variable {i code code' segment segment' address address' method key key' value value' path path'
  text : String}

/-! ### Plain pieces -/

/-- The characters of a class are plain when the class has none of the marks that open literals
and comments. -/
theorem isPlain_of_class {p : Char → Bool} {c : Char} (inside : p c = true)
    (outside : (['"', '\x27', '\x60', '/'].all fun mark => !p mark) = true) :
    IsPlain c := by
  have none : ∀ mark ∈ ['"', '\x27', '\x60', '/'], c ≠ mark := by
    intro mark mem
    exact Text.ne_of_class inside (by simpa using List.all_eq_true.mp outside mark mem)
  exact ⟨none _ (by simp), none _ (by simp), none _ (by simp), none _ (by simp)⟩

theorem isPlain_of_isIdentifier {name : String} (word : Text.isIdentifier name = true) :
    ∀ c ∈ name.toList, IsPlain c :=
  fun _ mem => isPlain_of_class (Text.isWordPart_of_mem word mem) (by decide)

/-! ### Built-in blocks -/

namespace Builtin

theorem twins_mainCode (body : Twins code code') : Twins (mainCode code) (mainCode code') := by
  unfold mainCode
  refine .append (.append ?_ body) ?_
  · exact .fixed rfl (by decide)
  · exact .fixed rfl (by decide)

theorem twins_serverCode (spaces : Twins i i) (bound : Twins address address')
    (body : Twins code code') :
    Twins (serverCode i address code) (serverCode i address' code') := by
  have inner : Twins (if code.isEmpty then "" else code ++ "\n")
      (if code'.isEmpty then "" else code' ++ "\n") := by
    rw [body.isEmpty_eq]
    split
    · exact .empty
    · exact body.append (.fixed rfl (by decide))
  unfold serverCode
  refine .append (.append (.append (.append (.append (.append (.append (.append ?_ ?_) inner) ?_)
    ?_) ?_) ?_) ?_) ?_
  · exact .fixed rfl (by decide)
  · refine .append (.append (.append spaces ?_) bound) ?_
    · exact .fixed rfl (by decide)
    · exact .fixed rfl (by decide)
  · exact spaces.append
      (.fixed_around "http.HandleFunc(" "/" ", apiHandler)\n\n" rfl rfl rfl rfl (by decide))
  · exact spaces.append (.fixed rfl (by decide))
  · exact spaces.append (.fixed rfl (by decide))
  · exact (spaces.append spaces).append (.fixed rfl (by decide))
  · exact spaces.append (.fixed rfl (by decide))
  · exact .fixed rfl (by decide)

theorem twins_routeGroupCode (spaces : Twins i i) (routes : Twins code code') :
    Twins (routeGroupCode i code) (routeGroupCode i code') := by
  have inner : Twins (if code.isEmpty then "" else s!"{i}path := \"\"\n" ++ code)
      (if code'.isEmpty then "" else s!"{i}path := \"\"\n" ++ code') := by
    rw [routes.isEmpty_eq]
    split
    · exact .empty
    · refine .append (spaces.append ?_) routes
      exact .fixed_around "path := " "" "\n" rfl rfl rfl rfl (by decide)
  unfold routeGroupCode
  refine .append (.append ?_ inner) ?_
  · exact .fixed rfl (by decide)
  · exact .fixed rfl (by decide)

theorem twins_routeCode (spaces : Twins i i) (tail : Twins segment segment')
    (verb : Twins method method) (inner : Twins code code') (handler : Twins text text) :
    Twins (routeCode i segment method code text) (routeCode i segment' method code' text) := by
  have handled : Twins (if text.isEmpty then "" else s!"{i}{text}\n")
      (if text.isEmpty then "" else s!"{i}{text}\n") := by
    split
    · exact .empty
    · exact .append (spaces.append handler) (.fixed rfl (by decide))
  unfold routeCode
  refine .append (.append (.append (.append (.append ?_ ?_) inner) handled) ?_) ?_
  · refine .append (.append (.append (.append ?_ tail) ?_) verb) ?_
    · exact .fixed rfl (by decide)
    · exact .fixed rfl (by decide)
    · exact .fixed rfl (by decide)
  · refine .append (.append (.append spaces ?_) tail) ?_
    · exact .fixed rfl (by decide)
    · exact .fixed rfl (by decide)
  · exact spaces.append (.fixed rfl (by decide))
  · exact .fixed rfl (by decide)

theorem twins_shutdownCode (spaces : Twins i i) (hooks : Twins code code') :
    Twins (shutdownCode i code) (shutdownCode i code') := by
  unfold shutdownCode
  refine .append (.append (.append (.append (.append (.append (.append (.append (.append (.append
    ?_ ?_) ?_) ?_) ?_) ?_) ?_) ?_) hooks) ?_) ?_
  · exact .fixed rfl (by decide)
  · exact .fixed rfl (by decide)
  · exact .fixed rfl (by decide)
  · exact spaces.append (.fixed rfl (by decide))
  · exact spaces.append
      (.fixed_around "log.Println(" "Shutting down the server..." ")\n\n" rfl rfl rfl rfl
        (by decide))
  · exact spaces.append (.fixed rfl (by decide))
  · exact spaces.append (.fixed rfl (by decide))
  · exact spaces.append (.fixed rfl (by decide))
  · exact spaces.append
      (.fixed_around "log.Println(" "Server gracefully stopped" ")\n" rfl rfl rfl rfl (by decide))
  · exact .fixed rfl (by decide)

theorem twins_mapCode (entries : Twins code code') : Twins (mapCode code) (mapCode code') := by
  unfold mapCode
  rw [entries.isEmpty_eq]
  split
  · exact .fixed rfl (by decide)
  · refine .append (.append ?_ entries) ?_
    · exact .fixed rfl (by decide)
    · exact .fixed rfl (by decide)

theorem twins_mapFieldCode (name : Twins key key') (filled : Twins value value') :
    Twins (mapFieldCode key value) (mapFieldCode key' value') := by
  unfold mapFieldCode
  refine .append (.append (name.append (.fixed rfl (by decide))) ?_) (.fixed rfl (by decide))
  rw [filled.requote_eq, filled.symm.requote_eq, filled.isEmpty_eq]
  split
  · exact .fixed rfl (by decide)
  · exact filled

theorem twins_handlerCode (place : Twins path path') (handler : Twins text text) :
    Twins (handlerCode path text) (handlerCode path' text) := by
  unfold handlerCode
  refine .append (.append (.append (.append ?_ place) ?_) handler) ?_
  · exact .fixed rfl (by decide)
  · exact .fixed rfl (by decide)
  · exact .fixed rfl (by decide)

end Builtin

/-! ### Package items -/

/-- The same parameter, which has an identifier for a name, with twins for values. -/
structure TwinArgument (argument argument' : Parameter × String) : Prop where
  parameter : argument.1 = argument'.1
  word : Text.isIdentifier argument.1.name = true
  value : Twins argument.2 argument'.2

/-- The same parameters in the same order, with twins for values. -/
abbrev TwinArguments : List (Parameter × String) → List (Parameter × String) → Prop :=
  List.Forall₂ TwinArgument

theorem Source.Twins.joinWith {texts texts' : List String} {sep : String}
    (all : List.Forall₂ Twins texts texts') (fixed : Twins sep sep) :
    Twins (Text.joinWith sep texts) (Text.joinWith sep texts') := by
  induction all with
  | nil => exact .empty
  | cons first rest ih =>
    cases rest with
    | nil => exact first
    | cons second more => exact (first.append fixed).append ih

variable {arguments arguments' : List (Parameter × String)}

theorem TwinArguments.isEmpty_eq (twins : TwinArguments arguments arguments') :
    arguments.isEmpty = arguments'.isEmpty := by
  cases twins <;> rfl

theorem PackageItem.twins_qualifiedName {item : PackageItem} (faultless : item.fault? = none) :
    Twins item.qualifiedName item.qualifiedName := by
  obtain ⟨package, name, -⟩ := PackageItem.isIdentifier_of_fault? faultless
  refine .append (.append ?_ (.fixed rfl (by decide))) ?_
  · exact .of_plain (isPlain_of_isIdentifier package)
  · exact .of_plain (isPlain_of_isIdentifier name)

theorem CallItem.twins_code {item : CallItem} (faultless : item.fault? = none)
    (twins : TwinArguments arguments arguments') :
    Twins (item.code arguments) (item.code arguments') := by
  have name := PackageItem.twins_qualifiedName faultless
  have values : List.Forall₂ Twins (arguments.map (·.2)) (arguments'.map (·.2)) :=
    List.forall₂_map_left_iff.mpr (List.forall₂_map_right_iff.mpr
      (twins.imp fun _ _ argument => argument.value))
  unfold code
  rw [twins.isEmpty_eq]
  split
  · exact name.append (.fixed rfl (by decide))
  · refine .append (.append (name.append ?_) ?_) ?_
    · exact .fixed rfl (by decide)
    · exact .joinWith values (.fixed rfl (by decide))
    · exact .fixed rfl (by decide)

theorem LiteralItem.twins_code {item : LiteralItem} (address : Bool)
    (faultless : item.fault? = none) (twins : TwinArguments arguments arguments') :
    Twins (item.code address arguments) (item.code address arguments') := by
  have name := PackageItem.twins_qualifiedName faultless
  have sign : Twins (if address then "&" else "") (if address then "&" else "") := by
    cases address with
    | false => exact .empty
    | true => exact .fixed rfl (by decide)
  have entries : List.Forall₂ Twins
      (arguments.map fun argument => s!"{argument.1.name}: {argument.2}")
      (arguments'.map fun argument => s!"{argument.1.name}: {argument.2}") := by
    refine List.forall₂_map_left_iff.mpr (List.forall₂_map_right_iff.mpr (twins.imp ?_))
    rintro ⟨field, value⟩ ⟨field', value'⟩ ⟨rfl, word, filled⟩
    refine .append (.append ?_ (.fixed rfl (by decide))) filled
    exact .of_plain (isPlain_of_isIdentifier word)
  refine .append (.append (.append (.append sign name) ?_) ?_) ?_
  · exact .fixed rfl (by decide)
  · exact .joinWith entries (.fixed rfl (by decide))
  · exact .fixed rfl (by decide)

end Blockwork
