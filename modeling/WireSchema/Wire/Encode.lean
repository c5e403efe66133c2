import WireSchema.Json.Writer
import WireSchema.Schema.Model
import WireSchema.Target

namespace WireSchema

/-! The JSON form of schemas and targets. -/

def Backing.toJson (backing : Backing) : Json := .string backing.name

def CaseValue.toJson : CaseValue → Json
  | .integer value => .number (.integer value.toInt)
  | .string text => .string text

def EnumCase.toJson (case : EnumCase) : Json :=
  .ofMembers [("name", .string case.name), ("value", case.value.toJson)]

def EnumType.members (enum : EnumType) : List (String × Json) :=
  [ ("name", .string enum.name), ("backing_kind", enum.backing.toJson),
    ("cases", .ofItems (enum.cases.map EnumCase.toJson)) ]

def EnumType.toJson (enum : EnumType) : Json := .ofMembers enum.members

def Primitive.name : Primitive → String
  | .string => "string"
  | .integer => "integer"
  | .float => "float"
  | .boolean => "boolean"
  | .datetime => "datetime"
  | .mixed => "mixed"

def Primitive.toJson (scalar : Primitive) : Json := .string scalar.name

mutual
def TypeRef.toJson : TypeRef → Json
  | .primitive scalar => .ofMembers [("primitive", scalar.toJson)]
  | .named name => .ofMembers [("named", .string name)]
  | .list element => .ofMembers [("list", element.toJson)]
  | .nullable inner => .ofMembers [("nullable", inner.toJson)]
  | .union members => .ofMembers [("union", .ofItems (typesToJson members))]

def typesToJson : List TypeRef → List Json
  | [] => []
  | type :: rest => type.toJson :: typesToJson rest
end

def Field.toJson (field : Field) : Json :=
  .ofMembers
    [ ("name", .string field.name), ("type_ref", field.type.toJson),
      ("serialized_key", .string field.key) ]

def RecordType.members (record : RecordType) : List (String × Json) :=
  [("name", .string record.name), ("fields", .ofItems (record.fields.map Field.toJson))]

def RecordType.toJson (record : RecordType) : Json := .ofMembers record.members

def TypeDecl.toJson : TypeDecl → Json
  | .enum decl => .ofMembers (("kind", .string "enum") :: decl.members)
  | .record decl => .ofMembers (("kind", .string "record") :: decl.members)

def Model.toJson (model : Model) : Json :=
  .ofMembers [("types", .ofItems (model.decls.map TypeDecl.toJson))]

def Language.toJson (language : Language) : Json := .string language.name

def EnumStyle.toJson (style : EnumStyle) : Json := .string style.name

def GoOptions.members (options : GoOptions) : List (String × Json) :=
  [("package", .string options.package), ("file_name", .string options.fileName)]

def GoOptions.toJson (options : GoOptions) : Json := .ofMembers options.members

def TypeScriptOptions.members (options : TypeScriptOptions) : List (String × Json) :=
  [("enum_style", options.enumStyle.toJson), ("file_name", .string options.fileName)]

def TypeScriptOptions.toJson (options : TypeScriptOptions) : Json := .ofMembers options.members

def Target.toJson : Target → Json
  | .go options => .ofMembers (("language", .string "go") :: options.members)
  | .typescript options =>
      .ofMembers (("language", .string "typescript") :: options.members)

end WireSchema
