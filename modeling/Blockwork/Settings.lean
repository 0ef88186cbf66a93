import Blockwork.Failure
import Blockwork.Json.Decode

/-!
# Settings

The settings of a session, each with a default, and the JSON text that overrides some of them.
-/

namespace Blockwork

/-- The settings of a session. -/
structure Settings where
  /-- Where the metadata and storage services are. -/
  serviceUrl : String := "http://127.0.0.1:3000"
  /-- The name of the generated file inside an archive. -/
  entryName : String := "cmd/main.go"
  indent : String := "\t"
  /-- Whether blocks of unlisted types are an error or generate nothing. -/
  strict : Bool := true
  /-- The key under which a store keeps the user's selection of packages. -/
  selectionKey : String := "pkgs"
  functionHue : Nat := 50
  structHue : Nat := 250
  /-- How much the hue grows from package to package. -/
  hueStep : Nat := 30
deriving DecidableEq

namespace Settings

instance : Inhabited Settings := ⟨{}⟩

/-- What the settings are called in their text. -/
def memberNames : List String :=
  ["base_url", "entry_path", "indent", "strict_block_types", "package_list_key",
    "function_colour_base", "struct_colour_base", "colour_step"]

/-- Reads settings; those that are missing keep their defaults. -/
def ofJson? (j : Json) : Option Settings := do
  let [serviceUrl, entryName, indent, strict, listKey, functionHue, structHue, step] ←
    j.record? memberNames | none
  let default : Settings := {}
  some
    { serviceUrl := ← Json.withDefault Json.text? default.serviceUrl serviceUrl
      entryName := ← Json.withDefault Json.text? default.entryName entryName
      indent := ← Json.withDefault Json.text? default.indent indent
      strict := ← Json.withDefault Json.bool? default.strict strict
      selectionKey := ← Json.withDefault Json.text? default.selectionKey listKey
      functionHue := ← Json.withDefault Json.word16? default.functionHue functionHue
      structHue := ← Json.withDefault Json.word16? default.structHue structHue
      hueStep := ← Json.withDefault Json.word16? default.hueStep step }

/-- Reads a text of settings. -/
def ofText (text : String) : Except Failure Settings :=
  match (Json.parse? text).bind ofJson? with
  | some settings => .ok settings
  | none => .error .badDocument

/-- Reads the settings in a file, given what the file holds. -/
def ofFile : Option String → Except Failure Settings
  | some text => ofText text
  | none => .error .badFile

/-- The document of settings. -/
def toJson (s : Settings) : Json :=
  .object <| memberNames.zip
    [.string s.serviceUrl, .string s.entryName, .string s.indent, .bool s.strict,
      .string s.selectionKey, .natural s.functionHue, .natural s.structHue,
      .natural s.hueStep]

/-- The hue of the package at an index: it starts at a base and grows by a step a package. The
numbers are 64-bit words, and their sum is not checked for overflow: the growth stops at the
largest word, and a sum that is larger starts from zero again. -/
def hueAt (base step index : Nat) : Nat :=
  let growth := min (step * index) (2 ^ 64 - 1)
  (base + growth) % 2 ^ 64 % 360

/-- As long as the sum is a word, hues go round the circle in equal steps. -/
theorem hueAt_of_fits {base step index : Nat} (fits : base + step * index < 2 ^ 64) :
    hueAt base step index = (base + step * index) % 360 := by
  have growth : step * index ≤ 2 ^ 64 - 1 := by omega
  rw [hueAt, Nat.min_eq_left growth, Nat.mod_eq_of_lt fits]

-- Past the largest word the growth stands still, and the hue is that of one below the base.
example : hueAt 50 30 (2 ^ 63) = 49 := by decide

/-- The hue of the functions of the package at an index. -/
def functionHueAt (s : Settings) (index : Nat) : Nat :=
  hueAt s.functionHue s.hueStep index

/-- The hue of the structs of the package at an index. -/
def structHueAt (s : Settings) (index : Nat) : Nat :=
  hueAt s.structHue s.hueStep index

end Settings

end Blockwork
