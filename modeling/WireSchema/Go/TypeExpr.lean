import WireSchema.Schema.Embedding
import WireSchema.Render.Fault

namespace WireSchema.Go

/-! The Go type of a field. -/

inductive Builtin where
  | string
  | int
  | float64
  | bool
  | any
deriving DecidableEq

def Builtin.text : Builtin → String
  | .string => "string"
  | .int => "int"
  | .float64 => "float64"
  | .bool => "bool"
  | .any => "any"

/-- A point in time travels as text. -/
def Builtin.ofPrimitive : Primitive → Builtin
  | .string | .datetime => .string
  | .integer => .int
  | .float => .float64
  | .boolean => .bool
  | .mixed => .any

inductive TypeExpr where
  | builtin (type : Builtin)
  | declared (identifier : String)
  | slice (element : TypeExpr)
  | pointer (target : TypeExpr)
deriving DecidableEq

def TypeExpr.text : TypeExpr → String
  | .builtin type => type.text
  | .declared identifier => identifier
  | .slice element => "[]" ++ element.text
  | .pointer target => "*" ++ target.text

/-- Whether the Go type of a value can be nil as it stands, so that it needs no pointer to
be nullable. -/
def acceptsNil : TypeRef → Bool
  | .list _ | .nullable _ | .primitive .mixed => true
  | _ => false

def layType (model : Model) (symbols : Symbols) (place : FieldPlace) :
    TypeRef → Except RenderCause TypeExpr
  | .primitive scalar => .ok (.builtin (.ofPrimitive scalar))
  | .named name =>
      if model.declares name then
        match symbols.type? name with
        | some identifier => .ok (.declared identifier)
        | none => .error (.missingSymbol name name)
      else .error (.unknownType place.owner place.field name)
  | .list element => do
      let element ← layType model symbols place element
      .ok (.slice element)
  | .nullable inner => do
      let type ← layType model symbols place inner
      .ok (if acceptsNil inner then type else .pointer type)
  | .union _ => .error (.unsupported place.owner (.unionField place.field))

/-- The Go type of a field.  A value that would lead back to its owner is held through a
pointer. -/
def fieldType (model : Model) (symbols : Symbols) (place : FieldPlace) (type : TypeRef) :
    Except RenderCause TypeExpr := do
  let expr ← layType model symbols place type
  match type with
  | .named name =>
      .ok (if model.embeds name place.owner then .pointer expr else expr)
  | _ => .ok expr

end WireSchema.Go
