import WireSchema.Schema.Fault

namespace WireSchema

/-! The check that a list of declarations is a well-formed schema.

It stops at the first fault.  Type names come first, over the whole list, so that every
type may refer to every other; then each declaration is checked in turn, from its first
case or field to its last.
-/

/-- Type names are not empty and differ from the names in `earlier` and from each other. -/
def checkTypeNames (earlier : List String) : List TypeDecl → Except SchemaFault Unit
  | [] => .ok ()
  | decl :: rest =>
      if decl.name = "" then .error (.emptyName .type)
      else if decl.name ∈ earlier then .error (.duplicateType decl.name)
      else checkTypeNames (decl.name :: earlier) rest

/-- A case has a name and a value of the right kind, and shares neither with the cases
in `earlier`. -/
def checkCase (enum : EnumType) (earlier : List EnumCase) (case : EnumCase) :
    Except SchemaFault Unit :=
  if case.name = "" then .error (.emptyName (.case enum.name))
  else if case.value.backing ≠ enum.backing then
    .error (.backingMismatch enum.name case.name enum.backing case.value.backing)
  else if case.name ∈ earlier.map EnumCase.name then
    .error (.duplicateCase enum.name case.name)
  else if case.value ∈ earlier.map EnumCase.value then
    .error (.duplicateValue enum.name case.name case.value)
  else .ok ()

def checkCases (enum : EnumType) (earlier : List EnumCase) :
    List EnumCase → Except SchemaFault Unit
  | [] => .ok ()
  | case :: rest => do
      checkCase enum earlier case
      checkCases enum (case :: earlier) rest

mutual
/-- Unions have at least two members and every name is in `known`. -/
def checkType (known : List String) (record field : String) : TypeRef → Except SchemaFault Unit
  | .primitive _ => .ok ()
  | .named name =>
      if name ∈ known then .ok () else .error (.unknownType record field name)
  | .list inner | .nullable inner => checkType known record field inner
  | .union members =>
      if members.length < 2 then .error (.shortUnion record field)
      else checkMembers known record field members

def checkMembers (known : List String) (record field : String) :
    List TypeRef → Except SchemaFault Unit
  | [] => .ok ()
  | member :: rest => do
      checkType known record field member
      checkMembers known record field rest
end

/-- A field has a name and a key, shares neither with the fields in `earlier`, and has a
well-formed type. -/
def checkField (known : List String) (record : String) (earlier : List Field) (field : Field) :
    Except SchemaFault Unit :=
  if field.name = "" then .error (.emptyName (.field record))
  else if field.key = "" then .error (.emptyName (.key record))
  else if field.name ∈ earlier.map Field.name then .error (.duplicateField record field.name)
  else if field.key ∈ earlier.map Field.key then
    .error (.duplicateKey record field.name field.key)
  else checkType known record field.name field.type

def checkFields (known : List String) (record : String) (earlier : List Field) :
    List Field → Except SchemaFault Unit
  | [] => .ok ()
  | field :: rest => do
      checkField known record earlier field
      checkFields known record (field :: earlier) rest

def checkDecl (known : List String) : TypeDecl → Except SchemaFault Unit
  | .enum decl => checkCases decl [] decl.cases
  | .record decl => checkFields known decl.name [] decl.fields

def checkDecls (known : List String) : List TypeDecl → Except SchemaFault Unit
  | [] => .ok ()
  | decl :: rest => do
      checkDecl known decl
      checkDecls known rest

def validate (decls : List TypeDecl) : Except SchemaFault Unit := do
  checkTypeNames [] decls
  checkDecls (decls.map TypeDecl.name) decls

end WireSchema
