import WireSchema.TypeScript.Lexis
import WireSchema.TypeScript.TypeExpr

namespace WireSchema.TypeScript

/-! The TypeScript declarations of enums and records.

A declaration is first laid out as data, with every name checked, and then printed.  A
record describes the serialized payload, so its properties are called by their keys.
-/

structure EnumMember where
  name : String
  value : CaseValue
deriving DecidableEq

structure Property where
  key : String
  type : TypeExpr

inductive Declaration where
  | enum (name : String) (members : List EnumMember)
  | literalUnion (name : String) (values : List CaseValue)
  | object (name : String) (properties : List Property)

def Declaration.name : Declaration → String
  | .enum name _ => name
  | .literalUnion name _ => name
  | .object name _ => name

def literal : CaseValue → String
  | .integer value => numeral value
  | .string text => stringLiteral text

def EnumMember.line (member : EnumMember) : String :=
  "  " ++ propertyName member.name ++ " = " ++ literal member.value ++ ",\n"

def Property.line (property : Property) : String :=
  "  " ++ propertyName property.key ++ ": " ++ typeText property.type ++ ";\n"

def Declaration.text : Declaration → String
  | .enum name [] => "export enum " ++ name ++ " \x7b\x7d\n"
  | .enum name members =>
      "export enum " ++ name ++ " \x7b\n" ++ String.join (members.map EnumMember.line) ++
        "\x7d\n"
  | .literalUnion name [] => "export type " ++ name ++ " = never;\n"
  | .literalUnion name values =>
      "export type " ++ name ++ " = " ++ " | ".intercalate (values.map literal) ++ ";\n"
  | .object name [] => "export type " ++ name ++ " = \x7b\x7d;\n"
  | .object name properties =>
      "export type " ++ name ++ " = \x7b\n" ++ String.join (properties.map Property.line) ++
        "\x7d;\n"

/-- The name of a declaration, if a type can be declared under it. -/
def declarable (name : String) : Except RenderCause String :=
  if isTypeIdentifier name then .ok name else .error (.invalidIdentifier name name)

def layMembers (enum : String) : List EnumCase → Except RenderCause (List EnumMember)
  | [] => .ok []
  | case :: rest =>
      if isNumericName case.name then .error (.invalidIdentifier enum case.name)
      else do
        let members ← layMembers enum rest
        .ok (⟨case.name, case.value⟩ :: members)

def layEnum (style : EnumStyle) (enum : EnumType) : Except RenderCause Declaration := do
  let name ← declarable enum.name
  match style with
  | .enum =>
      let members ← layMembers enum.name enum.cases
      .ok (.enum name members)
  | .unionType => .ok (.literalUnion name (enum.cases.map EnumCase.value))

def layProperties (model : Model) (record : String) :
    List Field → Except RenderCause (List Property)
  | [] => .ok []
  | field :: rest => do
      let type ← fieldType model ⟨record, field.name⟩ field.type
      let properties ← layProperties model record rest
      .ok (⟨field.key, type⟩ :: properties)

def layRecord (model : Model) (record : RecordType) : Except RenderCause Declaration := do
  let name ← declarable record.name
  let properties ← layProperties model record.name record.fields
  .ok (.object name properties)

/-- The TypeScript declaration of a type.  The type need not belong to the model. -/
def layDecl (model : Model) (style : EnumStyle) : TypeDecl → Except RenderCause Declaration
  | .enum decl => layEnum style decl
  | .record decl => layRecord model decl

end WireSchema.TypeScript
