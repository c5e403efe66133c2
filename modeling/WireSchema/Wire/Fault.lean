import WireSchema.Json.Basic
import WireSchema.Schema.Fault

namespace WireSchema.Wire

/-! What can go wrong when a JSON text is decoded. -/

inductive Found where
  | null
  | boolean (value : Bool)
  | number (value : JsonNumber)
  | string (text : String)
  | sequence
  | map
  | bareVariant
deriving DecidableEq

inductive Expected where
  | string
  | sequence
  | unit
  | stringOrMap
  | variantName
  | variantWithContent
  | struct (name : String)
  | tagged (name : String)
deriving DecidableEq

/-- A value of the wrong shape, in JSON that is well formed. -/
inductive ShapeFault where
  | invalidType (found : Found) (expected : Expected)
  | missingItem (length : Nat) (struct : String) (arity : Nat)
  | extraItems (length arity : Nat)
  | notOneEntry
  | unknownVariant (name : String) (known : List String)
  | missingField (name : String)
  | duplicateField (name : String)
  | noCaseValue
deriving DecidableEq

/-- Why a text cannot be decoded: it is no JSON, or has the wrong shape. -/
inductive DecodeFault where
  | malformed
  | shape (fault : ShapeFault)
deriving DecidableEq

def numberText (value : JsonNumber) : String :=
  let text := String.ofList value.text
  match value with
  | .integer _ => s!"integer `{text}`"
  | .double _ _ => s!"floating point `{text}`"

def Found.text : Found → String
  | .null => "null"
  | .boolean value => s!"boolean `{value}`"
  | .number value => numberText value
  | .string text => s!"string {Text.diagnosticText text}"
  | .sequence => "sequence"
  | .map => "map"
  | .bareVariant => "unit variant"

def Expected.text : Expected → String
  | .string => "a string"
  | .sequence => "a sequence"
  | .unit => "unit"
  | .stringOrMap => "string or map"
  | .variantName => "variant identifier"
  | .variantWithContent => "newtype variant"
  | .struct name => s!"struct {name}"
  | .tagged name => s!"internally tagged enum {name}"

def quoted (name : String) : String := s!"`{name}`"

/-- Names to choose from: two of them joined by a word, more as a list. -/
def choiceText : List String → String
  | [first] => quoted first
  | [first, second] => quoted first ++ " or " ++ quoted second
  | names => "one of " ++ ", ".intercalate (names.map quoted)

def ShapeFault.message : ShapeFault → String
  | .invalidType found expected => s!"invalid type: {found.text}, expected {expected.text}"
  | .missingItem length struct arity =>
      s!"invalid length {length}, expected struct {struct} with {arity} elements"
  | .extraItems length arity =>
      s!"invalid length {length}, expected {arity} elements in sequence"
  | .notOneEntry => "invalid value: map, expected map with a single key"
  | .unknownVariant name known =>
      s!"unknown variant {quoted name}, expected {choiceText known}"
  | .missingField name => s!"missing field {quoted name}"
  | .duplicateField name => s!"duplicate field {quoted name}"
  | .noCaseValue => "data did not match any variant of untagged enum EnumValue"

end WireSchema.Wire
