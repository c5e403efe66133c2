import WireSchema.Render.Fault

namespace WireSchema.TypeScript

/-! The TypeScript type of a field: a union of members, each written once.

Nullable types and nested unions dissolve into the union around them.  Two members count as
the same when they are written the same.
-/

inductive Builtin where
  | string
  | number
  | boolean
  | any
  | null
deriving DecidableEq

def Builtin.text : Builtin → String
  | .string => "string"
  | .number => "number"
  | .boolean => "boolean"
  | .any => "any"
  | .null => "null"

/-- A point in time travels as text, and there is one type for all numbers. -/
def Builtin.ofPrimitive : Primitive → Builtin
  | .string | .datetime => .string
  | .integer | .float => .number
  | .boolean => .boolean
  | .mixed => .any

inductive Member where
  | builtin (type : Builtin)
  | declared (name : String)
  | array (element : List Member)

/-- A type is the list of its members. -/
abbrev TypeExpr := List Member

mutual
def Member.text : Member → String
  | .builtin type => type.text
  | .declared name => name
  | .array element =>
      let inner := " | ".intercalate (memberTexts element)
      if 1 < element.length then "(" ++ inner ++ ")[]" else inner ++ "[]"

def memberTexts : List Member → List String
  | [] => []
  | member :: rest => member.text :: memberTexts rest
end

def typeText (type : TypeExpr) : String := " | ".intercalate (memberTexts type)

/-- Adds a member, unless an earlier one is written the same. -/
def addMember (earlier : TypeExpr) (member : Member) : TypeExpr :=
  if (memberTexts earlier).contains member.text then earlier else earlier ++ [member]

mutual
def collect (model : Model) (place : FieldPlace) (earlier : TypeExpr) :
    TypeRef → Except RenderCause TypeExpr
  | .primitive scalar => .ok (addMember earlier (.builtin (.ofPrimitive scalar)))
  | .named name =>
      if model.declares name then .ok (addMember earlier (.declared name))
      else .error (.unknownType place.owner place.field name)
  | .list element => do
      let element ← collect model place [] element
      .ok (addMember earlier (.array element))
  | .nullable inner => do
      let members ← collect model place earlier inner
      .ok (addMember members (.builtin .null))
  | .union members => collectAll model place earlier members

def collectAll (model : Model) (place : FieldPlace) (earlier : TypeExpr) :
    List TypeRef → Except RenderCause TypeExpr
  | [] => .ok earlier
  | type :: rest => do
      let members ← collect model place earlier type
      collectAll model place members rest
end

def fieldType (model : Model) (place : FieldPlace) (type : TypeRef) :
    Except RenderCause TypeExpr :=
  collect model place [] type

end WireSchema.TypeScript
