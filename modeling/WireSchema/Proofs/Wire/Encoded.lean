import WireSchema.Proofs.Json.ReadBack
import WireSchema.Proofs.Wire.Shape
import WireSchema.Wire.Model

namespace WireSchema

/-! The JSON form of a schema says what the schema is.

Decoding undoes encoding, part by part and in both modes.  The form loses nothing in
writing, and it nests as deep as the types of the fields do, plus the five levels from the
root to a field.
-/

namespace TypeRef

mutual
/-- How deep a type nests.  A union takes two levels, one of them for the list of its members. -/
def depth : TypeRef → Nat
  | .primitive _ | .named _ => 1
  | .list inner | .nullable inner => 1 + inner.depth
  | .union members => 2 + membersDepth members

def membersDepth : List TypeRef → Nat
  | [] => 0
  | member :: rest => max member.depth (membersDepth rest)
end

end TypeRef

/-- Every field has a type of at most that depth. -/
def TypeDecl.NestsWithin (depth : Nat) : TypeDecl → Prop
  | .enum _ => True
  | .record decl => ∀ field ∈ decl.fields, field.type.depth ≤ depth

def Model.NestsWithin (depth : Nat) (model : Model) : Prop :=
  ∀ decl ∈ model.decls, decl.NestsWithin depth

theorem CaseValue.toJson_exact (value : CaseValue) : value.toJson.Exact := by
  cases value with
  | integer value =>
      have least := value.le_toInt
      have greatest := value.toInt_lt
      refine .integer ?_ ?_
      · rw [Json.leastInteger]
        omega
      · rw [Json.greatestInteger]
        omega
  | string text => exact .string text

mutual
theorem TypeRef.toJson_exact (type : TypeRef) : type.toJson.Exact := by
  cases type with
  | primitive scalar => exact .object (by simpa using .string scalar.name)
  | named name => exact .object (by simpa using .string name)
  | list element => exact .object (by simpa using element.toJson_exact)
  | nullable inner => exact .object (by simpa using inner.toJson_exact)
  | union members => exact .object (by simpa using .array (typesToJson_exact members))

theorem typesToJson_exact (types : List TypeRef) : ∀ json ∈ typesToJson types, json.Exact := by
  cases types with
  | nil => simp [typesToJson]
  | cons type rest => exact List.forall_mem_cons.mpr ⟨type.toJson_exact, typesToJson_exact rest⟩
end

theorem Field.toJson_exact (field : Field) : field.toJson.Exact := by
  refine .object ?_
  simpa using ⟨.string field.name, field.type.toJson_exact, .string field.key⟩

theorem EnumCase.toJson_exact (case : EnumCase) : case.toJson.Exact := by
  refine .object ?_
  simpa using ⟨.string case.name, case.value.toJson_exact⟩

theorem EnumType.members_exact (enum : EnumType) :
    ∀ member ∈ enum.members, member.2.Exact := by
  have cases : ∀ json ∈ enum.cases.map EnumCase.toJson, json.Exact :=
    List.forall_mem_map.mpr fun case _ => case.toJson_exact
  simpa [EnumType.members] using ⟨.string enum.name, .string enum.backing.name, .array cases⟩

theorem RecordType.members_exact (record : RecordType) :
    ∀ member ∈ record.members, member.2.Exact := by
  have fields : ∀ json ∈ record.fields.map Field.toJson, json.Exact :=
    List.forall_mem_map.mpr fun field _ => field.toJson_exact
  simpa [RecordType.members] using ⟨.string record.name, .array fields⟩

theorem TypeDecl.toJson_exact (decl : TypeDecl) : decl.toJson.Exact := by
  cases decl with
  | enum decl => exact .object (List.forall_mem_cons.mpr ⟨.string _, decl.members_exact⟩)
  | record decl => exact .object (List.forall_mem_cons.mpr ⟨.string _, decl.members_exact⟩)

theorem Model.toJson_exact (model : Model) : model.toJson.Exact := by
  have decls : ∀ json ∈ model.decls.map TypeDecl.toJson, json.Exact :=
    List.forall_mem_map.mpr fun decl _ => decl.toJson_exact
  exact .object (by simpa using .array decls)

mutual
theorem TypeRef.toJson_nesting (type : TypeRef) : type.toJson.nesting = type.depth := by
  cases type with
  | primitive => rfl
  | named => rfl
  | list element =>
      have inner := element.toJson_nesting
      simp [TypeRef.toJson, Json.ofMembers, Json.nesting, Json.nestingMembers, TypeRef.depth, inner]
  | nullable inner =>
      have same := inner.toJson_nesting
      simp [TypeRef.toJson, Json.ofMembers, Json.nesting, Json.nestingMembers, TypeRef.depth, same]
  | union members =>
      have same := typesToJson_nesting members
      simp [TypeRef.toJson, Json.ofMembers, Json.ofItems, Json.nesting, Json.nestingMembers, TypeRef.depth,
        same]
      omega

theorem typesToJson_nesting (types : List TypeRef) :
    Json.nestingItems (typesToJson types) = TypeRef.membersDepth types := by
  cases types with
  | nil => rfl
  | cons type rest =>
      rw [typesToJson, Json.nestingItems, TypeRef.membersDepth, type.toJson_nesting,
        typesToJson_nesting rest]
end

theorem Field.toJson_nesting_le_iff (field : Field) (depth : Nat) :
    field.toJson.nesting ≤ depth + 1 ↔ field.type.depth ≤ depth := by
  simp [Field.toJson, Json.ofMembers, TypeRef.toJson_nesting]

theorem EnumCase.toJson_nesting_le (case : EnumCase) (depth : Nat) :
    case.toJson.nesting ≤ depth + 1 := by
  cases value : case.value <;> simp [EnumCase.toJson, CaseValue.toJson, Json.ofMembers, value]

theorem TypeDecl.toJson_nesting_le_iff (decl : TypeDecl) (depth : Nat) :
    decl.toJson.nesting ≤ depth + 3 ↔ decl.NestsWithin depth := by
  cases decl with
  | enum decl =>
      simp [TypeDecl.toJson, EnumType.members, NestsWithin, Json.ofMembers, Json.ofItems,
        Backing.toJson, EnumCase.toJson_nesting_le]
  | record decl =>
      simp [TypeDecl.toJson, RecordType.members, NestsWithin, Json.ofMembers, Json.ofItems,
        Field.toJson_nesting_le_iff]

theorem Model.toJson_nesting_le_iff (model : Model) (depth : Nat) :
    model.toJson.nesting ≤ depth + 5 ↔ model.NestsWithin depth := by
  simp [Model.toJson, NestsWithin, Json.ofMembers, Json.ofItems, TypeDecl.toJson_nesting_le_iff]

namespace Wire

mutual
theorem decodeType_toJson (mode : Mode) (type : TypeRef) :
    decodeType mode type.toJson = .ok type := by
  cases type with
  | primitive scalar => cases scalar <;> cases mode <;> rfl
  | named name => cases mode <;> rfl
  | list element =>
      have decoded := decodeType_toJson mode element
      simp [TypeRef.toJson, Json.ofMembers, decodeType, decodeTypeEntry, decoded]
  | nullable inner =>
      have decoded := decodeType_toJson mode inner
      simp [TypeRef.toJson, Json.ofMembers, decodeType, decodeTypeEntry, decoded]
  | union members =>
      have decoded := decodeTypes_toJson mode members
      simp [TypeRef.toJson, Json.ofMembers, Json.ofItems, decodeType, decodeTypeEntry, decodeUnion,
        decoded]

theorem decodeTypes_toJson (mode : Mode) (types : List TypeRef) :
    decodeTypes mode (typesToJson types) = .ok types := by
  cases types with
  | nil => rfl
  | cons type rest =>
      have head := decodeType_toJson mode type
      have tail := decodeTypes_toJson mode rest
      simp [typesToJson, decodeTypes, head, tail]
end

theorem decodeBacking_toJson (mode : Mode) (backing : Backing) :
    decodeBacking mode backing.toJson = .ok backing := by
  cases backing <;> rfl

theorem decodeCaseValue_toJson (value : CaseValue) :
    decodeCaseValue value.toJson = .ok value := by
  cases value with
  | integer value =>
      have least : Int64.minValue.toInt ≤ value.toInt := value.minValue_le_toInt
      have greatest : value.toInt ≤ Int64.maxValue.toInt := value.toInt_le
      simp only [CaseValue.toJson, decodeCaseValue, Json.whole, if_true,
        if_pos (And.intro least greatest), Int64.ofInt_toInt]
  | string text => rfl

theorem decodeCase_toJson (mode : Mode) (case : EnumCase) :
    decodeCase mode case.toJson = .ok case := by
  have value := decodeCaseValue_toJson case.value
  simp [decodeCase, Shape.decode, EnumCase.toJson, Json.ofMembers, fillMembers, caseShape,
    decodeString, value, require]

theorem decodeEnum_members (mode : Mode) (enum : EnumType) :
    decodeEnum mode (.ofMembers enum.members) = .ok enum := by
  have backing := decodeBacking_toJson mode enum.backing
  have cases : decodeSequence (caseShape.decode mode) (.ofItems (enum.cases.map EnumCase.toJson)) =
      .ok enum.cases := decodeSequence_map enum.cases fun case _ => decodeCase_toJson mode case
  simp [decodeEnum, Shape.decode, EnumType.members, Json.ofMembers, fillMembers, enumShape,
    decodeString, backing, cases, require]

theorem decodeField_toJson (mode : Mode) (field : Field) :
    decodeField mode field.toJson = .ok field := by
  have type := decodeType_toJson mode field.type
  simp [decodeField, Shape.decode, Field.toJson, Json.ofMembers, fillMembers, fieldShape,
    decodeString, decodeOptionalString, type, require]

theorem decodeRecord_members (mode : Mode) (record : RecordType) :
    decodeRecord mode (.ofMembers record.members) = .ok record := by
  have fields : decodeSequence ((fieldShape mode).decode mode)
      (.ofItems (record.fields.map Field.toJson)) = .ok record.fields :=
    decodeSequence_map record.fields fun field _ => decodeField_toJson mode field
  simp [decodeRecord, Shape.decode, RecordType.members, Json.ofMembers, fillMembers, recordShape,
    decodeString, fields, require]

theorem decodeDecl_toJson (decl : TypeDecl) : decodeDecl decl.toJson = .ok decl := by
  cases decl with
  | enum decl =>
      have decoded := decodeEnum_members .buffered decl
      rw [TypeDecl.toJson, decodeDecl, decodeTagged_ofMembers rfl (by simp [EnumType.members])
        fun member place => (decl.members_exact member place).whole, decoded]
      rfl
  | record decl =>
      have decoded := decodeRecord_members .buffered decl
      rw [TypeDecl.toJson, decodeDecl, decodeTagged_ofMembers rfl (by simp [RecordType.members])
        fun member place => (decl.members_exact member place).whole, decoded]
      rfl

theorem decodeSchema_toJson (model : Model) : decodeSchema model.toJson = .ok model.decls := by
  have decls := decodeSequence_map model.decls fun decl _ => decodeDecl_toJson decl
  simp [decodeSchema, Shape.decode, Model.toJson, Json.ofMembers, fillMembers, schemaShape, decls]

end Wire

end WireSchema
