import WireSchema.Go.Lexis
import WireSchema.Go.TypeExpr
import WireSchema.Text.Columns
import WireSchema.Text.Control

namespace WireSchema.Go

/-! The Go declarations of enums and records.

A declaration is first laid out as data, with every identifier checked, and then printed.
-/

structure Constant where
  identifier : String
  value : CaseValue
deriving DecidableEq

structure StructField where
  identifier : String
  type : TypeExpr
  key : String
deriving DecidableEq

/-- An enum becomes a defined type with typed constants, a record becomes a struct. -/
inductive Declaration where
  | enum (identifier : String) (backing : Backing) (constants : List Constant)
  | struct (identifier : String) (fields : List StructField)
deriving DecidableEq

namespace Declaration

def identifier : Declaration → String
  | .enum identifier _ _ => identifier
  | .struct identifier _ => identifier

end Declaration

def literal : CaseValue → String
  | .integer value => numeral value
  | .string text => stringLiteral text

def backingType : Backing → String
  | .integer => "int"
  | .string => "string"

def Constant.cells (type : String) (constant : Constant) : List String :=
  [constant.identifier, type, "= " ++ literal constant.value]

/-- The tag that gives a field its key in JSON. -/
def tag (key : String) : String := "`json:\"" ++ key ++ "\"`"

def StructField.cells (field : StructField) : List String :=
  [field.identifier, field.type.text, tag field.key]

def Declaration.text : Declaration → String
  | .enum identifier backing [] =>
      "type " ++ identifier ++ " " ++ backingType backing ++ "\n"
  | .enum identifier backing constants =>
      "type " ++ identifier ++ " " ++ backingType backing ++ "\n" ++
        "\nconst (\n" ++ Text.alignRows (constants.map (Constant.cells identifier)) ++ ")\n"
  | .struct identifier fields =>
      "type " ++ identifier ++ " struct \x7b\n" ++
        Text.alignRows (fields.map StructField.cells) ++ "\x7d\n"

def declarable (owner member : String) : Option String → Except RenderCause String
  | none => .error (.missingSymbol owner member)
  | some identifier =>
      if isPackageIdentifier identifier then .ok identifier
      else .error (.invalidIdentifier owner identifier)

def layConstants (symbols : Symbols) (enum : String) :
    List EnumCase → Except RenderCause (List Constant)
  | [] => .ok []
  | case :: rest => do
      let identifier ← declarable enum case.name (symbols.member? enum case.name)
      let constants ← layConstants symbols enum rest
      .ok (⟨identifier, case.value⟩ :: constants)

def layEnum (symbols : Symbols) (enum : EnumType) : Except RenderCause Declaration := do
  let identifier ← declarable enum.name enum.name (symbols.type? enum.name)
  let constants ← layConstants symbols enum.name enum.cases
  .ok (.enum identifier enum.backing constants)

/-- Whether a struct tag cannot carry the character: it would end the tag or its value, or
is a control character. -/
def breaksTag (c : Char) : Bool :=
  c == '\x60' || c == '"' || c == ',' || c == '\\' || Text.isControl c

def taggable (owner key : String) : Except RenderCause String :=
  match key.toList.find? breaksTag with
  | some c => .error (.unsupported owner (.tagCharacter key c))
  | none => .ok key

/-- The struct fields of a record whose earlier fields are called `earlier`. -/
def layFields (model : Model) (symbols : Symbols) (record : String) (earlier : List String) :
    List Field → Except RenderCause (List StructField)
  | [] => .ok []
  | field :: rest => do
      let identifier := Text.capitalize field.name
      if !isIdentifier identifier then .error (.invalidIdentifier record field.name)
      else if earlier.contains identifier then .error (.duplicateMember record identifier)
      else
        let type ← fieldType model symbols ⟨record, field.name⟩ field.type
        let key ← taggable record field.key
        let fields ← layFields model symbols record (identifier :: earlier) rest
        .ok (⟨identifier, type, key⟩ :: fields)

def layRecord (model : Model) (symbols : Symbols) (record : RecordType) :
    Except RenderCause Declaration := do
  let identifier ← declarable record.name record.name (symbols.type? record.name)
  let fields ← layFields model symbols record.name [] record.fields
  .ok (.struct identifier fields)

/-- The Go declaration of a type.  The type need not belong to the model. -/
def layDecl (model : Model) (symbols : Symbols) : TypeDecl → Except RenderCause Declaration
  | .enum decl => layEnum symbols decl
  | .record decl => layRecord model symbols decl

end WireSchema.Go
