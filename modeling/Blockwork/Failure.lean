import Blockwork.Decimal.Text

/-!
# Failures

Everything that can go wrong, as causes; `Failure.message` words them. Where a text of the
user's is to blame, the cause holds that text. Documents, files and networks fail in ways that
others describe, so their failures have only a general wording here.
-/

namespace Blockwork

/-- Why a field's value cannot be used. -/
inductive FieldFault where
  | notNumber (text : String)
  | checkbox
  | notPort (value : Binary64)
  | notFinite (value : Binary64)
  | unknownMethod (method : String)
  | notLiteral (code : String)
deriving DecidableEq

/-- Why the entry of a function or a struct cannot become a block type: one of the names in it
is no identifier, or a parameter's name occurs twice. -/
inductive EntryFault where
  | package (name : String)
  | item (name : String)
  | parameter (name : String)
  | repeated (name : String)
deriving DecidableEq

/-- What can go wrong. -/
inductive Failure where
  /-- The catalogue has no block type of this name. -/
  | unlisted (kind : String)
  | missingField (block field : String)
  | badField (block field : String) (fault : FieldFault)
  /-- An entry of a package cannot become a block type. -/
  | badEntry (name : String) (fault : EntryFault)
  /-- A text is no import path. -/
  | badPath (path : String)
  /-- A text is not a program. -/
  | badProgram
  /-- A request was answered with a status other than success. -/
  | refused (url : String) (status : Nat)
  /-- No program was shared under a key. -/
  | noSuchKey (key : String)
  /-- A block in a value slot generates code that is no value. -/
  | notValue (child kind input block : String)
  /-- A text other than a program's is not the JSON document it should be. -/
  | badDocument
  /-- A file could not be read or written. -/
  | badFile
  /-- A request got no answer at all. -/
  | noReply
deriving DecidableEq

/-- The wording of a fault in a field. -/
def FieldFault.message : FieldFault → String
  | notNumber text => s!"'{text}' is not a number"
  | checkbox => "expected a number, found a checkbox value"
  | notPort value => s!"{value.display} is not a valid port"
  | notFinite value => s!"{value.display} is not a finite number"
  | unknownMethod method => s!"unsupported HTTP method '{method}'"
  | notLiteral code => s!"import path must be a string literal, got {code}"

/-- The wording of a fault in an entry. -/
def EntryFault.message : EntryFault → String
  | package name => s!"namespace '{name}' is not an identifier"
  | item name => s!"name '{name}' is not an identifier"
  | parameter name => s!"'{name}' is not an identifier"
  | repeated name => s!"'{name}' is declared twice"

/-- The wording of a failure. -/
def Failure.message : Failure → String
  | unlisted kind => s!"Unknown block type: {kind}"
  | missingField block field => s!"Field '{field}' not found on block '{block}'"
  | badField block field fault =>
    s!"Invalid value for field '{field}' on block '{block}': {fault.message}"
  | badEntry name fault => s!"Invalid descriptor '{name}': {fault.message}"
  | badPath path => s!"Invalid package path: '{path}'"
  | badProgram => "Malformed program data"
  | refused url status => s!"Request to {url} failed with status {status}"
  | noSuchKey key => s!"No stored program for key '{key}'"
  | notValue child kind input block =>
    "Code generation failed: " ++
      s!"Block '{child}' ({kind}) in input '{input}' of block '{block}' does not produce a value"
  | badDocument => "<json error>"
  | badFile => "<file error>"
  | noReply => "<network error>"

end Blockwork
