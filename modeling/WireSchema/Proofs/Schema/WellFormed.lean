import WireSchema.Proofs.Schema.Validity

namespace WireSchema

/-! Well-formed schemas, and that validation accepts nothing else.

A schema is well formed when names, values and keys are there and do not repeat, and when
every reference has a target.  What stands inside a type is said by a relation, so that a
reference or a union counts however deep it lies, and in whatever member of a union.
-/

/-- A type stands somewhere in another one, at any depth, or is all of it. -/
inductive TypeRef.Occurs (part : TypeRef) : TypeRef → Prop where
  | here : Occurs part part
  | list {element : TypeRef} : Occurs part element → Occurs part (.list element)
  | nullable {inner : TypeRef} : Occurs part inner → Occurs part (.nullable inner)
  | union {member : TypeRef} {members : List TypeRef} :
      member ∈ members → Occurs part member → Occurs part (.union members)

structure EnumType.WellFormed (enum : EnumType) : Prop where
  named : ∀ case ∈ enum.cases, case.name ≠ ""
  distinctNames : (enum.cases.map EnumCase.name).Nodup
  backed : ∀ case ∈ enum.cases, case.value.backing = enum.backing
  distinctValues : (enum.cases.map EnumCase.value).Nodup

structure RecordType.WellFormed (decls : List TypeDecl) (record : RecordType) : Prop where
  named : ∀ field ∈ record.fields, field.name ≠ ""
  distinctNames : (record.fields.map Field.name).Nodup
  keyed : ∀ field ∈ record.fields, field.key ≠ ""
  distinctKeys : (record.fields.map Field.key).Nodup
  declared : ∀ field ∈ record.fields, ∀ name, (TypeRef.named name).Occurs field.type →
    ∃ decl ∈ decls, decl.name = name
  wideUnions : ∀ field ∈ record.fields, ∀ members, (TypeRef.union members).Occurs field.type →
    2 ≤ members.length

structure WellFormed (decls : List TypeDecl) : Prop where
  named : ∀ decl ∈ decls, decl.name ≠ ""
  distinctNames : (decls.map TypeDecl.name).Nodup
  enums : ∀ enum, .enum enum ∈ decls → enum.WellFormed
  records : ∀ record, .record record ∈ decls → record.WellFormed decls

namespace TypeRef

variable {part : TypeRef}

@[simp] theorem occurs_primitive_iff {scalar : Primitive} :
    part.Occurs (.primitive scalar) ↔ part = .primitive scalar := by
  constructor
  · intro occurs
    cases occurs
    rfl
  · intro same
    exact same ▸ .here

@[simp] theorem occurs_named_iff {name : String} :
    part.Occurs (.named name) ↔ part = .named name := by
  constructor
  · intro occurs
    cases occurs
    rfl
  · intro same
    exact same ▸ .here

@[simp] theorem occurs_list_iff {element : TypeRef} :
    part.Occurs (.list element) ↔ part = .list element ∨ part.Occurs element := by
  constructor
  · intro occurs
    cases occurs with
    | here => exact .inl rfl
    | list inside => exact .inr inside
  · intro either
    cases either with
    | inl same => exact same ▸ .here
    | inr inside => exact .list inside

@[simp] theorem occurs_nullable_iff {inner : TypeRef} :
    part.Occurs (.nullable inner) ↔ part = .nullable inner ∨ part.Occurs inner := by
  constructor
  · intro occurs
    cases occurs with
    | here => exact .inl rfl
    | nullable inside => exact .inr inside
  · intro either
    cases either with
    | inl same => exact same ▸ .here
    | inr inside => exact .nullable inside

@[simp] theorem occurs_union_iff {members : List TypeRef} :
    part.Occurs (.union members) ↔
      part = .union members ∨ ∃ member ∈ members, part.Occurs member := by
  constructor
  · intro occurs
    cases occurs with
    | here => exact .inl rfl
    | union member inside => exact .inr ⟨_, member, inside⟩
  · intro either
    cases either with
    | inl same => exact same ▸ .here
    | inr inside =>
        obtain ⟨_, member, occurs⟩ := inside
        exact .union member occurs

theorem Occurs.trans {middle outer : TypeRef} (inside : part.Occurs middle)
    (occurs : middle.Occurs outer) : part.Occurs outer := by
  induction occurs with
  | here => exact inside
  | list _ ih => exact .list ih
  | nullable _ ih => exact .nullable ih
  | union member _ ih => exact .union member ih

/-- Induction over a type and all members of the unions in it. -/
@[elab_as_elim] theorem throughUnions {motive : TypeRef → Prop}
    (primitive : ∀ scalar, motive (.primitive scalar)) (named : ∀ name, motive (.named name))
    (list : ∀ element, motive element → motive (.list element))
    (nullable : ∀ inner, motive inner → motive (.nullable inner))
    (union : ∀ members, (∀ member ∈ members, motive member) → motive (.union members))
    (type : TypeRef) : motive type :=
  @TypeRef.rec motive (fun members => ∀ member ∈ members, motive member) primitive named list
    nullable union nofun (fun _ _ head tail => List.forall_mem_cons.mpr ⟨head, tail⟩) type

theorem mem_memberNames {members : List TypeRef} {name : String} :
    name ∈ memberNames members ↔ ∃ member ∈ members, name ∈ member.names := by
  induction members with
  | nil => simp [memberNames]
  | cons member rest ih => simp [memberNames, ih]

theorem membersHaveWideUnions_iff {members : List TypeRef} :
    MembersHaveWideUnions members ↔ ∀ member ∈ members, member.HasWideUnions := by
  induction members with
  | nil => simp [MembersHaveWideUnions]
  | cons member rest ih => simp [MembersHaveWideUnions, ih]

theorem mem_names_iff {type : TypeRef} {name : String} :
    name ∈ type.names ↔ (TypeRef.named name).Occurs type := by
  induction type using throughUnions with
  | primitive scalar => simp [names]
  | named other => simp [names]
  | list element ih => simp [names, ih]
  | nullable inner ih => simp [names, ih]
  | union members ih =>
      simp only [names, mem_memberNames, occurs_union_iff, reduceCtorEq, false_or]
      constructor
      · intro found
        obtain ⟨member, inside, referred⟩ := found
        exact ⟨member, inside, (ih member inside).mp referred⟩
      · intro found
        obtain ⟨member, inside, occurs⟩ := found
        exact ⟨member, inside, (ih member inside).mpr occurs⟩

theorem hasWideUnions_iff {type : TypeRef} :
    type.HasWideUnions ↔
      ∀ members, (TypeRef.union members).Occurs type → 2 ≤ members.length := by
  induction type using throughUnions with
  | primitive scalar => simp [HasWideUnions]
  | named name => simp [HasWideUnions]
  | list element ih => simp [HasWideUnions, ih]
  | nullable inner ih => simp [HasWideUnions, ih]
  | union members ih =>
      simp only [HasWideUnions, membersHaveWideUnions_iff, occurs_union_iff, TypeRef.union.injEq]
      constructor
      · intro wide others occurs
        cases occurs with
        | inl same => exact same ▸ wide.1
        | inr inside =>
            obtain ⟨member, listed, occurs⟩ := inside
            exact (ih member listed).mp (wide.2 member listed) others occurs
      · intro wide
        refine ⟨wide members (.inl rfl), ?_⟩
        intro member listed
        apply (ih member listed).mpr
        intro others occurs
        exact wide others (.inr ⟨member, listed, occurs⟩)

end TypeRef

theorem checkDecl_enum_eq_ok_iff {known : List String} {enum : EnumType} :
    checkDecl known (.enum enum) = .ok () ↔ enum.WellFormed := by
  simp only [checkDecl, checkCases_eq_ok_iff, List.map_nil, List.disjoint_nil_right, and_true]
  constructor
  · intro accepted
    obtain ⟨each, distinctNames, distinctValues⟩ := accepted
    exact ⟨fun case member => (each case member).1, distinctNames,
      fun case member => (each case member).2, distinctValues⟩
  · intro wellFormed
    exact ⟨fun case member => ⟨wellFormed.named case member, wellFormed.backed case member⟩,
      wellFormed.distinctNames, wellFormed.distinctValues⟩

theorem checkDecl_record_eq_ok_iff {decls : List TypeDecl} {record : RecordType} :
    checkDecl (decls.map TypeDecl.name) (.record record) = .ok () ↔ record.WellFormed decls := by
  simp only [checkDecl, checkFields_eq_ok_iff, List.map_nil, List.disjoint_nil_right, and_true]
  constructor
  · intro accepted
    obtain ⟨each, distinctNames, distinctKeys⟩ := accepted
    refine ⟨fun field member => (each field member).named, distinctNames,
      fun field member => (each field member).keyed, distinctKeys, ?_, ?_⟩
    · intro field member name occurs
      have known := (each field member).names_known name (TypeRef.mem_names_iff.mpr occurs)
      exact List.mem_map.mp known
    · intro field member
      exact TypeRef.hasWideUnions_iff.mp (each field member).wideUnions
  · intro wellFormed
    refine ⟨?_, wellFormed.distinctNames, wellFormed.distinctKeys⟩
    intro field member
    refine ⟨wellFormed.named field member, wellFormed.keyed field member, ?_, ?_⟩
    · intro name referred
      have declared := wellFormed.declared field member name (TypeRef.mem_names_iff.mp referred)
      exact List.mem_map.mpr declared
    · exact TypeRef.hasWideUnions_iff.mpr (wellFormed.wideUnions field member)

/-- Validation accepts the well-formed schemas and no others. -/
theorem validate_accepts_iff (decls : List TypeDecl) :
    validate decls = .ok () ↔ WellFormed decls := by
  simp only [validate, andThen_eq_ok_iff, checkTypeNames_eq_ok_iff, checkDecls_eq_ok_iff,
    List.disjoint_nil_right, and_true]
  constructor
  · intro accepted
    obtain ⟨⟨named, distinctNames⟩, checked⟩ := accepted
    exact ⟨named, distinctNames,
      fun enum declared => checkDecl_enum_eq_ok_iff.mp (checked _ declared),
      fun record declared => checkDecl_record_eq_ok_iff.mp (checked _ declared)⟩
  · intro wellFormed
    refine ⟨⟨wellFormed.named, wellFormed.distinctNames⟩, ?_⟩
    intro decl declared
    cases decl with
    | enum enum => exact checkDecl_enum_eq_ok_iff.mpr (wellFormed.enums enum declared)
    | record record => exact checkDecl_record_eq_ok_iff.mpr (wellFormed.records record declared)

end WireSchema
