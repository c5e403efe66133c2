import WireSchema.Wire.Decode
import WireSchema.Wire.Encode

namespace WireSchema

/-! Models as JSON texts. -/

/-- Why a text is no model: it cannot be decoded, or its schema is not well formed. -/
inductive ModelFault where
  | unreadable (fault : Wire.DecodeFault)
  | invalid (fault : SchemaFault)
deriving DecidableEq

def Wire.DecodeFault.message : Wire.DecodeFault → String
  | .malformed => "malformed JSON"
  | .shape fault => fault.message

def ModelFault.message : ModelFault → String
  | .unreadable fault => s!"invalid model JSON: {fault.message}"
  | .invalid fault => fault.message

namespace Model

def ofText (text : String) : Except ModelFault Model :=
  match Wire.decodeText Wire.decodeSchema text with
  | .error fault => .error (.unreadable fault)
  | .ok decls =>
      match ofDecls decls with
      | .error fault => .error (.invalid fault)
      | .ok model => .ok model

def text (model : Model) : String := model.toJson.text

end Model

end WireSchema
