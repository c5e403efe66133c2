import WireSchema.Proofs.Outcome
import WireSchema.TypeScript.File

namespace WireSchema.TypeScript

/-! What a TypeScript file that was laid out holds.

Only names can stop a layout: those that no type can have, those that no enum member can
have, and those that nothing declares.
-/

section

variable {model : Model} {place : FieldPlace}

mutual
/-- What was collected earlier decides which members are added, never which name is refused. -/
theorem collect_eq_refuse (earlier : TypeExpr) :
    (type : TypeRef) → (collect model place earlier type).map (fun _ => ()) =
      refuse (.unknownType place.owner place.field) (type.names.find? (!model.declares ·))
  | .primitive scalar => rfl
  | .named name => by
      rw [collect, TypeRef.names, List.find?_singleton]
      cases model.declares name <;> rfl
  | .list element => by
      rw [TypeRef.names, ← collect_eq_refuse [] element, collect]
      cases collect model place [] element <;> rfl
  | .nullable inner => by
      rw [TypeRef.names, ← collect_eq_refuse earlier inner, collect]
      cases collect model place earlier inner <;> rfl
  | .union members => collectAll_eq_refuse earlier members

theorem collectAll_eq_refuse (earlier : TypeExpr) :
    (types : List TypeRef) → (collectAll model place earlier types).map (fun _ => ()) =
      refuse (.unknownType place.owner place.field)
        ((TypeRef.memberNames types).find? (!model.declares ·))
  | [] => rfl
  | type :: rest => by
      rw [TypeRef.memberNames, List.find?_append, refuse_or, ← collect_eq_refuse earlier type,
        collectAll]
      cases collect model place earlier type with
      | error cause => rfl
      | ok members => exact collectAll_eq_refuse members rest
end

theorem fieldType_exists_iff {type : TypeRef} :
    (∃ expr, fieldType model place type = .ok expr) ↔
      ∀ name ∈ type.names, model.declares name = true := by
  have refused := @collect_eq_refuse model place [] type
  calc
    _ ↔ (fieldType model place type).map (fun _ => ()) = .ok () := by simp [map_eq_ok_iff]
    _ ↔ type.names.find? (!model.declares ·) = none := by
      rw [fieldType, refused, refuse_eq_ok_iff]
    _ ↔ _ := by simp

theorem declarable_eq_ok_iff {name declared : String} :
    declarable name = .ok declared ↔ declared = name ∧ isTypeIdentifier name = true := by
  rw [declarable, when_eq_ok_iff, Except.ok.injEq]
  constructor
  · rintro ⟨accepted, rfl⟩
    exact ⟨rfl, accepted⟩
  · rintro ⟨rfl, accepted⟩
    exact ⟨accepted, rfl⟩

def EnumMember.ofCase (case : EnumCase) : EnumMember := ⟨case.name, case.value⟩

theorem layMembers_eq_ok_iff {enum : String} {cases : List EnumCase}
    {members : List EnumMember} :
    layMembers enum cases = .ok members ↔
      cases.map EnumMember.ofCase = members ∧
        ∀ case ∈ cases, isNumericName case.name = false := by
  induction cases generalizing members with
  | nil => simp [layMembers]
  | cons case rest ih =>
      simp only [layMembers, unless_eq_ok_iff, bind_eq_ok_iff, ih, Except.ok.injEq,
        List.map_cons, List.forall_mem_cons, Bool.not_eq_true]
      constructor
      · rintro ⟨unlike, tail, ⟨rfl, others⟩, rfl⟩
        exact ⟨rfl, unlike, others⟩
      · rintro ⟨rfl, unlike, others⟩
        exact ⟨unlike, _, ⟨rfl, others⟩, rfl⟩

structure LaidProperty (model : Model) (record : String) (field : Field)
    (property : Property) : Prop where
  key_eq : property.key = field.key
  typed : fieldType model ⟨record, field.name⟩ field.type = .ok property.type

theorem layProperties_eq_ok_iff {record : String} {fields : List Field}
    {properties : List Property} :
    layProperties model record fields = .ok properties ↔
      List.Forall₂ (LaidProperty model record) fields properties := by
  induction fields generalizing properties with
  | nil => simp [layProperties, eq_comm]
  | cons field rest ih =>
      simp only [layProperties, bind_eq_ok_iff, ih, List.forall₂_cons_left_iff,
        Except.ok.injEq]
      constructor
      · rintro ⟨type, typed, tail, related, rfl⟩
        exact ⟨⟨field.key, type⟩, tail, ⟨rfl, typed⟩, related, rfl⟩
      · rintro ⟨⟨key, type⟩, tail, ⟨rfl, typed⟩, related, rfl⟩
        exact ⟨type, typed, tail, related, rfl⟩

inductive Laid (model : Model) : EnumStyle → TypeDecl → Declaration → Prop where
  | enum {enum : EnumType} : isTypeIdentifier enum.name = true →
      (∀ case ∈ enum.cases, isNumericName case.name = false) →
      Laid model .enum (.enum enum) (.enum enum.name (enum.cases.map EnumMember.ofCase))
  | literalUnion {enum : EnumType} : isTypeIdentifier enum.name = true →
      Laid model .unionType (.enum enum)
        (.literalUnion enum.name (enum.cases.map EnumCase.value))
  | object {style : EnumStyle} {record : RecordType} {properties : List Property} :
      isTypeIdentifier record.name = true →
      List.Forall₂ (LaidProperty model record.name) record.fields properties →
      Laid model style (.record record) (.object record.name properties)

variable {style : EnumStyle} {declaration : Declaration}

theorem layEnum_eq_ok_iff {enum : EnumType} :
    layEnum style enum = .ok declaration ↔ Laid model style (.enum enum) declaration := by
  simp only [layEnum, bind_eq_ok_iff, declarable_eq_ok_iff]
  cases style with
  | enum =>
      simp only [bind_eq_ok_iff, layMembers_eq_ok_iff, Except.ok.injEq]
      constructor
      · rintro ⟨_, ⟨rfl, accepted⟩, _, ⟨rfl, unlike⟩, rfl⟩
        exact .enum accepted unlike
      · intro laid
        cases laid with
        | enum accepted unlike => exact ⟨_, ⟨rfl, accepted⟩, _, ⟨rfl, unlike⟩, rfl⟩
  | unionType =>
      simp only [Except.ok.injEq]
      constructor
      · rintro ⟨_, ⟨rfl, accepted⟩, rfl⟩
        exact .literalUnion accepted
      · intro laid
        cases laid with
        | literalUnion accepted => exact ⟨_, ⟨rfl, accepted⟩, rfl⟩

theorem layRecord_eq_ok_iff {record : RecordType} :
    layRecord model record = .ok declaration ↔
      Laid model style (.record record) declaration := by
  simp only [layRecord, bind_eq_ok_iff, declarable_eq_ok_iff, layProperties_eq_ok_iff,
    Except.ok.injEq]
  constructor
  · rintro ⟨_, ⟨rfl, accepted⟩, properties, related, rfl⟩
    exact .object accepted related
  · intro laid
    cases laid with
    | object accepted related => exact ⟨_, ⟨rfl, accepted⟩, _, related, rfl⟩

theorem layDecl_eq_ok_iff {decl : TypeDecl} :
    layDecl model style decl = .ok declaration ↔ Laid model style decl declaration := by
  cases decl with
  | enum enum => exact layEnum_eq_ok_iff
  | record record => exact layRecord_eq_ok_iff

theorem layFile_eq_ok_iff {file : File} :
    layFile model style = .ok file ↔
      List.Forall₂ (Laid model style) model.decls file.declarations := by
  simp only [layFile, bind_eq_ok_iff, mapM_eq_ok_iff, layDecl_eq_ok_iff, Except.ok.injEq]
  constructor
  · rintro ⟨declarations, related, rfl⟩
    exact related
  · intro related
    exact ⟨_, related, rfl⟩

end

end WireSchema.TypeScript
