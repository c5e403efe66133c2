import WireSchema.Proofs.Schema.WellFormed
import WireSchema.Proofs.TypeScript.Layout

namespace WireSchema

/-! The names inside a field type, as different walks over it meet them.

The type is walked for its names, for the check of a schema, and for its TypeScript text.  The
last two are recursions of their own, and each stops where nothing answers to a name.  Both
meet the names in the order of the first walk, so both stop at the first such name in it.
-/

section

variable {known : List String} {record field : String}

mutual
/-- As long as no union is too short, the check stops at nothing but a name. -/
theorem checkType_eq_refuse :
    (type : TypeRef) → type.HasWideUnions → checkType known record field type =
      refuse (.unknownType record field) (type.names.find? (· ∉ known))
  | .primitive _, _ => rfl
  | .named name, _ => by
      by_cases listed : name ∈ known <;> simp [checkType, TypeRef.names, listed, refuse]
  | .list inner, wide | .nullable inner, wide => checkType_eq_refuse inner wide
  | .union members, wide => by
      rw [checkType, if_neg (Nat.not_lt.mpr wide.1), TypeRef.names,
        checkMembers_eq_refuse members wide.2]

theorem checkMembers_eq_refuse :
    (members : List TypeRef) → TypeRef.MembersHaveWideUnions members →
      checkMembers known record field members =
        refuse (.unknownType record field) ((TypeRef.memberNames members).find? (· ∉ known))
  | [], _ => rfl
  | member :: rest, wide => by
      rw [checkMembers, TypeRef.memberNames, List.find?_append, refuse_or,
        checkType_eq_refuse member wide.1, checkMembers_eq_refuse rest wide.2]
end

end

theorem find?_not_mem_exists {names known : List String} (missing : ∃ name ∈ names, name ∉ known) :
    ∃ first, names.find? (· ∉ known) = some first := by
  rw [← Option.isSome_iff_exists, List.find?_isSome]
  simpa using missing

theorem Model.declares_eq_decide (model : Model) (name : String) :
    model.declares name = decide (name ∈ model.decls.map TypeDecl.name) := by
  rw [Bool.eq_iff_iff, decide_eq_true_eq, List.mem_map, model.declares_iff]

theorem TypeScript.fieldType_eq_refuse {model : Model} {place : FieldPlace} {type : TypeRef} :
    (fieldType model place type).map (fun _ => ()) =
      refuse (.unknownType place.owner place.field)
        (type.names.find? (· ∉ model.decls.map TypeDecl.name)) := by
  rw [fieldType, collect_eq_refuse]
  simp only [model.declares_eq_decide, decide_not]

theorem TypeScript.typeText_eq_error_iff {model : Model} {place : FieldPlace} {type : TypeRef}
    {cause : RenderCause} :
    (fieldType model place type).map typeText = .error cause ↔
      ∃ first, type.names.find? (· ∉ model.decls.map TypeDecl.name) = some first ∧
        cause = .unknownType place.owner place.field first := by
  rw [map_eq_error_iff, ← @map_eq_error_iff _ _ _ _ (fun _ => ()), fieldType_eq_refuse,
    refuse_eq_error_iff]
  simp only [eq_comm]

/-- The check accepts a type when each of its names is known and no union in it is too short,
and where only names are at fault, it reports the first of them.  The TypeScript type is there
unless the model lacks a name, however short the unions are, and what is reported then is the
first such name. -/
theorem TypeRef.traversals_agree (type : TypeRef) :
    (∀ known record field,
      (checkType known record field type = .ok () ↔
        (∀ name ∈ type.names, name ∈ known) ∧
          ∀ members, (TypeRef.union members).Occurs type → 2 ≤ members.length) ∧
      ((∀ members, (TypeRef.union members).Occurs type → 2 ≤ members.length) →
        (∃ name ∈ type.names, name ∉ known) →
        ∃ first, type.names.find? (· ∉ known) = some first ∧
          checkType known record field type = .error (.unknownType record field first))) ∧
    ∀ (model : Model) (place : FieldPlace),
      ((∃ cause, (TypeScript.fieldType model place type).map TypeScript.typeText = .error cause) ↔
        ∃ name ∈ type.names, name ∉ model.decls.map TypeDecl.name) ∧
      ∀ cause, (TypeScript.fieldType model place type).map TypeScript.typeText = .error cause →
        ∃ first, type.names.find? (· ∉ model.decls.map TypeDecl.name) = some first ∧
          cause = .unknownType place.owner place.field first := by
  refine ⟨fun known record field => ⟨?_, ?_⟩, fun model place => ⟨⟨?_, ?_⟩, ?_⟩⟩
  · rw [checkType_eq_ok_iff, hasWideUnions_iff]
  · intro wide missing
    obtain ⟨first, found⟩ := find?_not_mem_exists missing
    refine ⟨first, found, ?_⟩
    rw [checkType_eq_refuse type (hasWideUnions_iff.mpr wide), found]
    rfl
  · intro failed
    obtain ⟨cause, failed⟩ := failed
    obtain ⟨first, found, _⟩ := TypeScript.typeText_eq_error_iff.mp failed
    exact ⟨first, List.mem_of_find?_eq_some found, by simpa using List.find?_some found⟩
  · intro missing
    obtain ⟨first, found⟩ := find?_not_mem_exists missing
    exact ⟨_, TypeScript.typeText_eq_error_iff.mpr ⟨first, found, rfl⟩⟩
  · intro cause failed
    exact TypeScript.typeText_eq_error_iff.mp failed

/-- A known name in a list, an unknown one in a union inside the union, and one behind it. -/
def parcel : TypeRef :=
  .union [.list (.named "Box"), .nullable (.union [.named "Crate", .list (.named "Barrel")])]

def boxes : Model where
  decls := [.record ⟨"Box", []⟩]
  valid := by decide

theorem parcel_traversals_agree :
    (∀ members, (TypeRef.union members).Occurs parcel → 2 ≤ members.length) ∧
      checkType ["Box"] "Order" "load" parcel = .error (.unknownType "Order" "load" "Crate") ∧
      checkType ["Box"] "Order" "load" (.union [parcel]) = .error (.shortUnion "Order" "load") ∧
      (TypeScript.fieldType boxes ⟨"Order", "load"⟩ (.union [parcel])).map TypeScript.typeText =
        .error (.unknownType "Order" "load" "Crate") := by
  have wide : ∀ members, (TypeRef.union members).Occurs parcel → 2 ≤ members.length := by
    rw [← TypeRef.hasWideUnions_iff]
    simp [parcel, TypeRef.HasWideUnions, TypeRef.MembersHaveWideUnions]
  have unknown : parcel.names.find? (· ∉ ["Box"]) = some "Crate" := by decide
  obtain ⟨first, found, reported⟩ :=
    (parcel.traversals_agree.1 ["Box"] "Order" "load").2 wide ⟨"Crate", by decide, by decide⟩
  cases unknown.symm.trans found
  obtain ⟨stops, cause⟩ :=
    (TypeRef.union [parcel]).traversals_agree.2 boxes ⟨"Order", "load"⟩
  obtain ⟨_, failed⟩ := stops.mpr ⟨"Crate", by decide, by decide⟩
  obtain ⟨first, found, rfl⟩ := cause _ failed
  have undeclared : (TypeRef.union [parcel]).names.find?
      (· ∉ boxes.decls.map TypeDecl.name) = some "Crate" := by decide
  cases undeclared.symm.trans found
  exact ⟨wide, reported, by decide, failed⟩

end WireSchema
