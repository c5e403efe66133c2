import Mathlib.Data.List.Nodup
import WireSchema.Go.File
import WireSchema.Proofs.Go.FieldType

namespace WireSchema.Go

/-! What a Go file that was laid out holds.

Laying out fails at the first thing that Go cannot declare.  Where it does not fail, the
parts of the file stand in the order of the schema, each of them related to the part of
the schema that it was laid out for, and the relation says all that was checked on the way.
-/

section

variable {model : Model} {symbols : Symbols}

theorem declarable_eq_ok_iff {owner member identifier : String} {found : Option String} :
    declarable owner member found = .ok identifier ↔
      found = some identifier ∧ isPackageIdentifier identifier = true := by
  cases found with
  | none => simp [declarable]
  | some spelled =>
      simp only [declarable, when_eq_ok_iff, Except.ok.injEq, Option.some.injEq]
      constructor
      · rintro ⟨accepted, rfl⟩
        exact ⟨rfl, accepted⟩
      · rintro ⟨rfl, accepted⟩
        exact ⟨accepted, rfl⟩

/-- An identifier that a package declares for a symbol. -/
def Declares (symbols : Symbols) (key : SymbolKey) (identifier : String) : Prop :=
  symbols.get? key = some identifier ∧ isPackageIdentifier identifier = true

structure LaidConstant (symbols : Symbols) (enum : String) (case : EnumCase)
    (constant : Constant) : Prop where
  symbol : symbols.member? enum case.name = some constant.identifier
  declarable : isPackageIdentifier constant.identifier = true
  value_eq : constant.value = case.value

theorem layConstants_eq_ok_iff {enum : String} {cases : List EnumCase}
    {constants : List Constant} :
    layConstants symbols enum cases = .ok constants ↔
      List.Forall₂ (LaidConstant symbols enum) cases constants := by
  induction cases generalizing constants with
  | nil => simp [layConstants, eq_comm]
  | cons case rest ih =>
      simp only [layConstants, bind_eq_ok_iff, declarable_eq_ok_iff, ih,
        List.forall₂_cons_left_iff, Except.ok.injEq]
      constructor
      · rintro ⟨identifier, ⟨symbol, accepted⟩, tail, laid, rfl⟩
        exact ⟨⟨identifier, case.value⟩, tail, ⟨symbol, accepted, rfl⟩, laid, rfl⟩
      · rintro ⟨⟨identifier, value⟩, tail, ⟨symbol, accepted, rfl⟩, laid, rfl⟩
        exact ⟨identifier, ⟨symbol, accepted⟩, tail, laid, rfl⟩

theorem taggable_eq_ok_iff {owner key tagged : String} :
    taggable owner key = .ok tagged ↔
      tagged = key ∧ ∀ c ∈ key.toList, breaksTag c = false := by
  unfold taggable
  cases found : key.toList.find? breaksTag with
  | none =>
      have carried := List.find?_eq_none.mp found
      simp only [Except.ok.injEq]
      exact ⟨fun same => ⟨same.symm, by simpa using carried⟩, fun both => both.1.symm⟩
  | some c =>
      have member := List.mem_of_find?_eq_some found
      have breaks := List.find?_some found
      simp only [reduceCtorEq, false_iff, not_and, not_forall]
      exact fun _ => ⟨c, member, by simp [breaks]⟩

structure LaidField (model : Model) (symbols : Symbols) (record : String) (field : Field)
    (laid : StructField) : Prop where
  identifier_eq : laid.identifier = Text.capitalize field.name
  isIdentifier : isIdentifier laid.identifier = true
  typed : fieldType model symbols ⟨record, field.name⟩ field.type = .ok laid.type
  key_eq : laid.key = field.key
  taggable : ∀ c ∈ field.key.toList, breaksTag c = false

def exported (fields : List Field) : List String :=
  fields.map fun field => Text.capitalize field.name

theorem layFields_eq_ok_iff {record : String} {earlier : List String} {fields : List Field}
    {laid : List StructField} :
    layFields model symbols record earlier fields = .ok laid ↔
      List.Forall₂ (LaidField model symbols record) fields laid ∧ (exported fields).Nodup ∧
        (exported fields).Disjoint earlier := by
  induction fields generalizing earlier laid with
  | nil => simp [layFields, exported, eq_comm]
  | cons field rest ih =>
      simp only [layFields, unless_eq_ok_iff, bind_eq_ok_iff, taggable_eq_ok_iff, ih,
        List.forall₂_cons_left_iff, Except.ok.injEq, Bool.not_eq_true', Bool.not_eq_false,
        List.contains_iff_mem, exported, List.map_cons, List.nodup_cons,
        List.disjoint_cons_left, List.disjoint_cons_right]
      constructor
      · rintro ⟨spelled, fresh, type, typed, _, ⟨rfl, carried⟩, tail,
          ⟨related, distinct, new, apart⟩, rfl⟩
        exact ⟨⟨⟨Text.capitalize field.name, type, field.key⟩, tail,
          ⟨rfl, spelled, typed, rfl, carried⟩, related, rfl⟩, ⟨new, distinct⟩, fresh, apart⟩
      · rintro ⟨⟨⟨identifier, type, key⟩, tail, ⟨rfl, spelled, typed, rfl, carried⟩, related, rfl⟩,
          ⟨new, distinct⟩, fresh, apart⟩
        exact ⟨spelled, fresh, type, typed, field.key, ⟨rfl, carried⟩, tail,
          ⟨related, distinct, new, apart⟩, rfl⟩

inductive Laid (model : Model) (symbols : Symbols) : TypeDecl → Declaration → Prop where
  | enum {enum : EnumType} {identifier : String} {constants : List Constant} :
      symbols.type? enum.name = some identifier → isPackageIdentifier identifier = true →
      List.Forall₂ (LaidConstant symbols enum.name) enum.cases constants →
      Laid model symbols (.enum enum) (.enum identifier enum.backing constants)
  | struct {record : RecordType} {identifier : String} {fields : List StructField} :
      symbols.type? record.name = some identifier → isPackageIdentifier identifier = true →
      List.Forall₂ (LaidField model symbols record.name) record.fields fields →
      (exported record.fields).Nodup →
      Laid model symbols (.record record) (.struct identifier fields)

theorem layEnum_eq_ok_iff {enum : EnumType} {declaration : Declaration} :
    layEnum symbols enum = .ok declaration ↔ Laid model symbols (.enum enum) declaration := by
  simp only [layEnum, bind_eq_ok_iff, declarable_eq_ok_iff, layConstants_eq_ok_iff,
    Except.ok.injEq]
  constructor
  · rintro ⟨identifier, ⟨symbol, accepted⟩, constants, related, rfl⟩
    exact .enum symbol accepted related
  · intro laid
    cases laid with
    | enum symbol accepted related => exact ⟨_, ⟨symbol, accepted⟩, _, related, rfl⟩

theorem layRecord_eq_ok_iff {record : RecordType} {declaration : Declaration} :
    layRecord model symbols record = .ok declaration ↔
      Laid model symbols (.record record) declaration := by
  simp only [layRecord, bind_eq_ok_iff, declarable_eq_ok_iff, layFields_eq_ok_iff,
    Except.ok.injEq]
  constructor
  · rintro ⟨identifier, ⟨symbol, accepted⟩, fields, ⟨related, distinct, _⟩, rfl⟩
    exact .struct symbol accepted related distinct
  · intro laid
    cases laid with
    | struct symbol accepted related distinct =>
        exact ⟨_, ⟨symbol, accepted⟩, _, ⟨related, distinct, List.disjoint_nil_right _⟩, rfl⟩

theorem layDecl_eq_ok_iff {decl : TypeDecl} {declaration : Declaration} :
    layDecl model symbols decl = .ok declaration ↔ Laid model symbols decl declaration := by
  cases decl with
  | enum enum => exact layEnum_eq_ok_iff
  | record record => exact layRecord_eq_ok_iff

theorem layFile_eq_ok_iff {package : String} {file : File} :
    layFile model symbols package = .ok file ↔
      file.package = package ∧ isIdentifier package = true ∧
        List.Forall₂ (Laid model symbols) model.decls file.declarations := by
  simp only [layFile, unless_eq_ok_iff, bind_eq_ok_iff, mapM_eq_ok_iff, layDecl_eq_ok_iff,
    Bool.not_eq_true', Bool.not_eq_false, Except.ok.injEq]
  constructor
  · rintro ⟨accepted, declarations, related, rfl⟩
    exact ⟨rfl, accepted, related⟩
  · rintro ⟨rfl, accepted, related⟩
    exact ⟨accepted, _, related, rfl⟩

end

end WireSchema.Go
