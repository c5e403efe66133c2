import WireSchema.Symbol.Resolution
import WireSchema.Text.Diagnostic

namespace WireSchema

/-! What keeps a model from being printed in a language. -/

/-- Something a language has no way to say. -/
inductive Unsupported where
  | unionField (field : String)
  | tagCharacter (key : String) (c : Char)
  | missingSymbols
deriving DecidableEq

def Unsupported.detail : Unsupported → String
  | .unionField field => s!"field '{field}' has a union type, which Go cannot express"
  | .tagCharacter key c =>
      s!"serialized key '{key}' contains {Text.diagnosticChar c}, " ++
        "which a json struct tag cannot carry"
  | .missingSymbols => "flat-scoped target has no resolved symbols"

inductive RenderCause where
  | unknownType (owner field name : String)
  | missingSymbol (owner member : String)
  | invalidIdentifier (owner name : String)
  | duplicateMember (owner name : String)
  | unsupported (owner : String) (construct : Unsupported)
deriving DecidableEq

structure RenderFault where
  language : Language
  cause : RenderCause
deriving DecidableEq

def RenderCause.message : RenderCause → String
  | .unknownType owner field name => s!"unknown type '{name}' in field '{owner}.{field}'"
  | .missingSymbol owner member => s!"no resolved identifier for '{owner}.{member}'"
  | .invalidIdentifier owner name => s!"'{name}' in '{owner}' is not a valid identifier"
  | .duplicateMember owner name => s!"members of '{owner}' both render as '{name}'"
  | .unsupported owner construct => s!"unsupported in '{owner}': {construct.detail}"

def RenderFault.message (fault : RenderFault) : String :=
  s!"{fault.language.name}: {fault.cause.message}"

/-- The place of a field, for the reports on it. -/
structure FieldPlace where
  owner : String
  field : String

end WireSchema
