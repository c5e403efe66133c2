import WireSchema.Schema.Basic
import WireSchema.Text.Diagnostic

namespace WireSchema

/-! What can be wrong with a schema. -/

/-- A place where a name is needed and an empty one stands. -/
inductive NamePlace where
  | type
  | case (enum : String)
  | field (record : String)
  | key (record : String)
deriving DecidableEq

def NamePlace.kind : NamePlace → String
  | .type => "type"
  | .case _ => "case"
  | .field _ => "field"
  | .key _ => "serialized key"

def NamePlace.owner : NamePlace → String
  | .type => "<schema>"
  | .case owner | .field owner | .key owner => owner

inductive SchemaFault where
  | emptyName (place : NamePlace)
  | duplicateType (name : String)
  | duplicateCase (enum case : String)
  | duplicateValue (enum case : String) (value : CaseValue)
  | backingMismatch (enum case : String) (expected found : Backing)
  | duplicateField (record field : String)
  | duplicateKey (record field key : String)
  | unknownType (record field name : String)
  | shortUnion (record field : String)
deriving DecidableEq

def CaseValue.diagnostic : CaseValue → String
  | .integer value => numeral value
  | .string text => Text.diagnosticText text

def SchemaFault.message : SchemaFault → String
  | .emptyName place => s!"empty {place.kind} name in '{place.owner}'"
  | .duplicateType name => s!"duplicate type definition: '{name}'"
  | .duplicateCase enum case => s!"duplicate case name '{case}' in enum '{enum}'"
  | .duplicateValue enum case value =>
      s!"duplicate value {value.diagnostic} for case '{case}' in enum '{enum}'"
  | .backingMismatch enum case expected found =>
      s!"case '{case}' in enum '{enum}' has a {found.name} value, expected {expected.name}"
  | .duplicateField record field => s!"duplicate field '{field}' in record '{record}'"
  | .duplicateKey record field key =>
      s!"duplicate serialized key '{key}' on field '{field}' in record '{record}'"
  | .unknownType record field name =>
      s!"unknown type '{name}' referenced by field '{field}' in record '{record}'"
  | .shortUnion record field =>
      s!"union on field '{field}' in record '{record}' needs at least two members"

end WireSchema
