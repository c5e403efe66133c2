import WireSchema.Json.Reader
import WireSchema.Schema.Model
import WireSchema.Target
import WireSchema.Wire.Shape

namespace WireSchema.Wire

/-! Decoding of schemas and targets from JSON. -/

def backings : List (String × Backing) :=
  [("integer", .integer), ("string", .string)]

def decodeBacking (mode : Mode) (json : Json) : Decoded Backing :=
  decodeVariant backings mode json

def primitives : List (String × Primitive) :=
  [ ("string", .string), ("integer", .integer), ("float", .float), ("boolean", .boolean),
    ("datetime", .datetime), ("mixed", .mixed) ]

def decodePrimitive (mode : Mode) (json : Json) : Decoded Primitive :=
  decodeVariant primitives mode json

/-- A case value is read whole before it is looked at.  Numbers other than integers of 64
bits with sign are refused, never rounded. -/
def decodeCaseValue (json : Json) : Decoded CaseValue :=
  if json.whole then
    match json with
    | .number (.integer value) =>
        if Int64.minValue.toInt ≤ value ∧ value ≤ Int64.maxValue.toInt then
          .ok (.integer (Int64.ofInt value))
        else misshapen .noCaseValue
    | .string text => .ok (.string text)
    | _ => misshapen .noCaseValue
  else .error .malformed

def typeVariants : List String := ["primitive", "named", "list", "nullable", "union"]

/-- A type is never written by its name alone. -/
def decodeBareType (name : String) : Decoded TypeRef :=
  if typeVariants.contains name then misshapen (.invalidType .bareVariant .variantWithContent)
  else misshapen (.unknownVariant name typeVariants)

def decodePrimitiveType (mode : Mode) (json : Json) : Decoded TypeRef := do
  let scalar ← decodePrimitive mode json
  .ok (.primitive scalar)

def decodeNamedType (json : Json) : Decoded TypeRef := do
  let name ← decodeString json
  .ok (.named name)

mutual
def decodeType (mode : Mode) : Json → Decoded TypeRef
  | .string name => decodeBareType name
  | .object members closed => decodeTypeEntry mode closed members
  | json => noVariant mode json

/-- The type written as the only entry of an object. -/
def decodeTypeEntry (mode : Mode) (closed : Bool) : List (String × Json) → Decoded TypeRef
  | [] => noEntry mode
  | (name, content) :: others => do
      if mode = .buffered ∧ !others.isEmpty then misshapen .notOneEntry
      else
        let type ←
          if name = "primitive" then decodePrimitiveType mode content
          else if name = "named" then decodeNamedType content
          else if name = "list" then do
            let element ← decodeType mode content
            .ok (.list element)
          else if name = "nullable" then do
            let inner ← decodeType mode content
            .ok (.nullable inner)
          else if name = "union" then decodeUnion mode content
          else misshapen (.unknownVariant name typeVariants)
        requireClosed (closed && others.isEmpty) type

def decodeUnion (mode : Mode) : Json → Decoded TypeRef
  | .array items closed => do
      let members ← decodeTypes mode items
      requireClosed closed (.union members)
  | json => mismatch json .sequence

def decodeTypes (mode : Mode) : List Json → Decoded (List TypeRef)
  | [] => .ok []
  | item :: rest => do
      let type ← decodeType mode item
      let types ← decodeTypes mode rest
      .ok (type :: types)
end

structure CaseDraft where
  name : Option String := none
  value : Option CaseValue := none

def caseShape : Shape CaseDraft EnumCase where
  name := "EnumCase"
  blank := {}
  slots :=
    [ ⟨"name", (·.name.isSome), fun draft json => do
        .ok { draft with name := some (← decodeString json) }⟩,
      ⟨"value", (·.value.isSome), fun draft json => do
        .ok { draft with value := some (← decodeCaseValue json) }⟩ ]
  finish missing draft := do
    let name ← require missing 0 "name" draft.name
    let value ← require missing 1 "value" draft.value
    .ok { name, value }

structure EnumDraft where
  name : Option String := none
  backing : Option Backing := none
  cases : Option (List EnumCase) := none

def enumShape (mode : Mode) : Shape EnumDraft EnumType where
  name := "EnumDef"
  blank := {}
  slots :=
    [ ⟨"name", (·.name.isSome), fun draft json => do
        .ok { draft with name := some (← decodeString json) }⟩,
      ⟨"backing_kind", (·.backing.isSome), fun draft json => do
        .ok { draft with backing := some (← decodeBacking mode json) }⟩,
      ⟨"cases", (·.cases.isSome), fun draft json => do
        .ok { draft with cases := some (← decodeSequence (caseShape.decode mode) json) }⟩ ]
  finish missing draft := do
    let name ← require missing 0 "name" draft.name
    let backing ← require missing 1 "backing_kind" draft.backing
    .ok { name, backing, cases := draft.cases.getD [] }

structure FieldDraft where
  name : Option String := none
  type : Option TypeRef := none
  key : Option (Option String) := none

/-- A field without a key of its own travels under its name. -/
def fieldShape (mode : Mode) : Shape FieldDraft Field where
  name := "FieldRepr"
  blank := {}
  slots :=
    [ ⟨"name", (·.name.isSome), fun draft json => do
        .ok { draft with name := some (← decodeString json) }⟩,
      ⟨"type_ref", (·.type.isSome), fun draft json => do
        .ok { draft with type := some (← decodeType mode json) }⟩,
      ⟨"serialized_key", (·.key.isSome), fun draft json => do
        .ok { draft with key := some (← decodeOptionalString json) }⟩ ]
  finish missing draft := do
    let name ← require missing 0 "name" draft.name
    let type ← require missing 1 "type_ref" draft.type
    .ok { name, type, key := draft.key.join.getD name }

structure RecordDraft where
  name : Option String := none
  fields : Option (List Field) := none

def recordShape (mode : Mode) : Shape RecordDraft RecordType where
  name := "RecordDef"
  blank := {}
  slots :=
    [ ⟨"name", (·.name.isSome), fun draft json => do
        .ok { draft with name := some (← decodeString json) }⟩,
      ⟨"fields", (·.fields.isSome), fun draft json => do
        let fields ← decodeSequence ((fieldShape mode).decode mode) json
        .ok { draft with fields := some fields }⟩ ]
  finish missing draft := do
    let name ← require missing 0 "name" draft.name
    .ok { name, fields := draft.fields.getD [] }

def decodeCase (mode : Mode) (json : Json) : Decoded EnumCase := caseShape.decode mode json

def decodeEnum (mode : Mode) (json : Json) : Decoded EnumType := (enumShape mode).decode mode json

def decodeField (mode : Mode) (json : Json) : Decoded Field := (fieldShape mode).decode mode json

def decodeRecord (mode : Mode) (json : Json) : Decoded RecordType :=
  (recordShape mode).decode mode json

/-- A declaration is tagged by its kind. -/
def decodeDecl (json : Json) : Decoded TypeDecl :=
  decodeTagged "TypeDef" "kind"
    [ ("enum", fun content => do
        let decl ← decodeEnum .buffered content
        .ok (.enum decl)),
      ("record", fun content => do
        let decl ← decodeRecord .buffered content
        .ok (.record decl)) ]
    json

structure SchemaDraft where
  decls : Option (List TypeDecl) := none

def schemaShape : Shape SchemaDraft (List TypeDecl) where
  name := "ModelRepr"
  blank := {}
  slots :=
    [ ⟨"types", (·.decls.isSome), fun draft json => do
        .ok { draft with decls := some (← decodeSequence decodeDecl json) }⟩ ]
  finish _ draft := .ok (draft.decls.getD [])

def decodeSchema (json : Json) : Decoded (List TypeDecl) := schemaShape.decode .streamed json

def languages : List (String × Language) := [("go", .go), ("typescript", .typescript)]

def decodeLanguage (mode : Mode) (json : Json) : Decoded Language :=
  decodeVariant languages mode json

def enumStyles : List (String × EnumStyle) := [("enum", .enum), ("union_type", .unionType)]

def decodeEnumStyle (mode : Mode) (json : Json) : Decoded EnumStyle :=
  decodeVariant enumStyles mode json

structure GoDraft where
  package : Option String := none
  fileName : Option String := none

def goShape : Shape GoDraft GoOptions where
  name := "GoOptions"
  blank := {}
  slots :=
    [ ⟨"package", (·.package.isSome), fun draft json => do
        .ok { draft with package := some (← decodeString json) }⟩,
      ⟨"file_name", (·.fileName.isSome), fun draft json => do
        .ok { draft with fileName := some (← decodeString json) }⟩ ]
  finish _ draft :=
    let default : GoOptions := {}
    .ok { package := draft.package.getD default.package
          fileName := draft.fileName.getD default.fileName }

structure TypeScriptDraft where
  enumStyle : Option EnumStyle := none
  fileName : Option String := none

def typeScriptShape (mode : Mode) : Shape TypeScriptDraft TypeScriptOptions where
  name := "TypeScriptOptions"
  blank := {}
  slots :=
    [ ⟨"enum_style", (·.enumStyle.isSome), fun draft json => do
        .ok { draft with enumStyle := some (← decodeEnumStyle mode json) }⟩,
      ⟨"file_name", (·.fileName.isSome), fun draft json => do
        .ok { draft with fileName := some (← decodeString json) }⟩ ]
  finish _ draft :=
    let default : TypeScriptOptions := {}
    .ok { enumStyle := draft.enumStyle.getD default.enumStyle
          fileName := draft.fileName.getD default.fileName }

def decodeGoOptions (mode : Mode) (json : Json) : Decoded GoOptions := goShape.decode mode json

def decodeTypeScriptOptions (mode : Mode) (json : Json) : Decoded TypeScriptOptions :=
  (typeScriptShape mode).decode mode json

/-- A target is tagged by its language. -/
def decodeTarget (json : Json) : Decoded Target :=
  decodeTagged "Target" "language"
    [ ("go", fun content => do
        let options ← decodeGoOptions .buffered content
        .ok (.go options)),
      ("typescript", fun content => do
        let options ← decodeTypeScriptOptions .buffered content
        .ok (.typescript options)) ]
    json

/-- Decodes a text that holds one value and nothing else. -/
def decodeText {α : Type} (decode : Json → Decoded α) (text : String) : Decoded α := do
  let document := Json.readDocument text.toList
  let value ← decode document.root
  requireClosed document.complete value

end WireSchema.Wire
