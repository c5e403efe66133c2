import Mathlib.Data.List.Nodup
import WireSchema.Proofs.Outcome
import WireSchema.Schema.Model

namespace WireSchema

/-! What a validated schema guarantees.

Each check of the validation accepts exactly the parts that keep its rules.  The rules are
said here without the order in which they are tested and without what was seen earlier, so
that whoever relies on a model need not look at the checks.
-/

theorem checkTypeNames_eq_ok_iff {earlier : List String} {decls : List TypeDecl} :
    checkTypeNames earlier decls = .ok () ↔
      (∀ decl ∈ decls, decl.name ≠ "") ∧ (decls.map TypeDecl.name).Nodup ∧
        (decls.map TypeDecl.name).Disjoint earlier := by
  induction decls generalizing earlier with
  | nil => simp [checkTypeNames]
  | cons decl rest ih =>
      simp only [checkTypeNames, unless_eq_ok_iff, ih, List.forall_mem_cons, List.map_cons,
        List.nodup_cons, List.disjoint_cons_left, List.disjoint_cons_right]
      constructor
      · rintro ⟨named, fresh, others, distinct, different, disjoint⟩
        exact ⟨⟨named, others⟩, ⟨different, distinct⟩, fresh, disjoint⟩
      · rintro ⟨⟨named, others⟩, ⟨different, distinct⟩, fresh, disjoint⟩
        exact ⟨named, fresh, others, distinct, different, disjoint⟩

theorem checkCase_eq_ok_iff {enum : EnumType} {earlier : List EnumCase} {case : EnumCase} :
    checkCase enum earlier case = .ok () ↔
      (case.name ≠ "" ∧ case.value.backing = enum.backing) ∧
        case.name ∉ earlier.map EnumCase.name ∧ case.value ∉ earlier.map EnumCase.value := by
  simp only [checkCase, unless_eq_ok_iff, and_true, ne_eq, not_not, and_assoc]

theorem checkCases_eq_ok_iff {enum : EnumType} {earlier cases : List EnumCase} :
    checkCases enum earlier cases = .ok () ↔
      (∀ case ∈ cases, case.name ≠ "" ∧ case.value.backing = enum.backing) ∧
      ((cases.map EnumCase.name).Nodup ∧
        (cases.map EnumCase.name).Disjoint (earlier.map EnumCase.name)) ∧
      (cases.map EnumCase.value).Nodup ∧
        (cases.map EnumCase.value).Disjoint (earlier.map EnumCase.value) := by
  induction cases generalizing earlier with
  | nil => simp [checkCases]
  | cons case rest ih =>
      simp only [checkCases, andThen_eq_ok_iff, checkCase_eq_ok_iff, ih,
        List.forall_mem_cons, List.map_cons, List.nodup_cons, List.disjoint_cons_left,
        List.disjoint_cons_right]
      constructor
      · rintro ⟨⟨head, name, value⟩, others, ⟨names, newName, apart⟩, values, newValue, valuesApart⟩
        exact ⟨⟨head, others⟩, ⟨⟨newName, names⟩, name, apart⟩, ⟨newValue, values⟩, value,
          valuesApart⟩
      · rintro ⟨⟨head, others⟩, ⟨⟨newName, names⟩, name, apart⟩, ⟨newValue, values⟩, value,
          valuesApart⟩
        exact ⟨⟨head, name, value⟩, others, ⟨names, newName, apart⟩, values, newValue, valuesApart⟩

mutual
/-- Every union in the type, at any depth, has at least two members. -/
def TypeRef.HasWideUnions : TypeRef → Prop
  | .primitive _ | .named _ => True
  | .list inner | .nullable inner => inner.HasWideUnions
  | .union members => 2 ≤ members.length ∧ TypeRef.MembersHaveWideUnions members

/-- The same for each member of a union. -/
def TypeRef.MembersHaveWideUnions : List TypeRef → Prop
  | [] => True
  | member :: rest => member.HasWideUnions ∧ TypeRef.MembersHaveWideUnions rest
end

mutual
theorem checkType_eq_ok_iff {known : List String} {record field : String} :
    (type : TypeRef) → (checkType known record field type = .ok () ↔
      (∀ name ∈ type.names, name ∈ known) ∧ type.HasWideUnions)
  | .primitive _ => by simp [checkType, TypeRef.names, TypeRef.HasWideUnions]
  | .named name => by
      simp [checkType, TypeRef.names, TypeRef.HasWideUnions]
  | .list inner | .nullable inner => by
      simpa only [checkType, TypeRef.names, TypeRef.HasWideUnions]
        using checkType_eq_ok_iff inner
  | .union members => by
      simp only [checkType, TypeRef.names, TypeRef.HasWideUnions, unless_eq_ok_iff,
        checkMembers_eq_ok_iff members, Nat.not_lt]
      exact and_left_comm

theorem checkMembers_eq_ok_iff {known : List String} {record field : String} :
    (members : List TypeRef) → (checkMembers known record field members = .ok () ↔
      (∀ name ∈ TypeRef.memberNames members, name ∈ known) ∧
        TypeRef.MembersHaveWideUnions members)
  | [] => by simp [checkMembers, TypeRef.memberNames, TypeRef.MembersHaveWideUnions]
  | member :: rest => by
      simp only [checkMembers, andThen_eq_ok_iff, checkType_eq_ok_iff member,
        checkMembers_eq_ok_iff rest, TypeRef.memberNames,
        TypeRef.MembersHaveWideUnions, List.forall_mem_append]
      exact and_and_and_comm
end

/-- The rules for a field that look at no other field. -/
structure Field.WellFormed (known : List String) (field : Field) : Prop where
  named : field.name ≠ ""
  keyed : field.key ≠ ""
  names_known : ∀ name ∈ field.type.names, name ∈ known
  wideUnions : field.type.HasWideUnions

theorem checkField_eq_ok_iff {known : List String} {record : String} {earlier : List Field}
    {field : Field} :
    checkField known record earlier field = .ok () ↔
      field.WellFormed known ∧ field.name ∉ earlier.map Field.name ∧
        field.key ∉ earlier.map Field.key := by
  simp only [checkField, unless_eq_ok_iff, checkType_eq_ok_iff]
  constructor
  · rintro ⟨named, keyed, name, key, known, wide⟩
    exact ⟨⟨named, keyed, known, wide⟩, name, key⟩
  · rintro ⟨⟨named, keyed, known, wide⟩, name, key⟩
    exact ⟨named, keyed, name, key, known, wide⟩

theorem checkFields_eq_ok_iff {known : List String} {record : String}
    {earlier fields : List Field} :
    checkFields known record earlier fields = .ok () ↔
      (∀ field ∈ fields, field.WellFormed known) ∧
      ((fields.map Field.name).Nodup ∧
        (fields.map Field.name).Disjoint (earlier.map Field.name)) ∧
      (fields.map Field.key).Nodup ∧
        (fields.map Field.key).Disjoint (earlier.map Field.key) := by
  induction fields generalizing earlier with
  | nil => simp [checkFields]
  | cons field rest ih =>
      simp only [checkFields, andThen_eq_ok_iff, checkField_eq_ok_iff, ih,
        List.forall_mem_cons, List.map_cons, List.nodup_cons, List.disjoint_cons_left,
        List.disjoint_cons_right]
      constructor
      · rintro ⟨⟨head, name, key⟩, others, ⟨names, newName, apart⟩, keys, newKey, keysApart⟩
        exact ⟨⟨head, others⟩, ⟨⟨newName, names⟩, name, apart⟩, ⟨newKey, keys⟩, key, keysApart⟩
      · rintro ⟨⟨head, others⟩, ⟨⟨newName, names⟩, name, apart⟩, ⟨newKey, keys⟩, key, keysApart⟩
        exact ⟨⟨head, name, key⟩, others, ⟨names, newName, apart⟩, keys, newKey, keysApart⟩

theorem checkDecls_eq_ok_iff {known : List String} {decls : List TypeDecl} :
    checkDecls known decls = .ok () ↔ ∀ decl ∈ decls, checkDecl known decl = .ok () := by
  induction decls with
  | nil => simp [checkDecls]
  | cons decl rest ih =>
      simp [checkDecls, andThen_eq_ok_iff, ih]

/-! The guarantees, as a model gives them. -/

namespace Model

theorem checked (model : Model) :
    checkTypeNames [] model.decls = .ok () ∧
      ∀ decl ∈ model.decls, checkDecl (model.decls.map TypeDecl.name) decl = .ok () := by
  obtain ⟨names, decls⟩ := andThen_eq_ok_iff.mp model.valid
  exact ⟨names, checkDecls_eq_ok_iff.mp decls⟩

theorem distinctNames (model : Model) : (model.decls.map TypeDecl.name).Nodup :=
  (checkTypeNames_eq_ok_iff.mp model.checked.1).2.1

/-- A name belongs to one declaration. -/
theorem eq_of_name_eq (model : Model) {left right : TypeDecl} (leftIn : left ∈ model.decls)
    (rightIn : right ∈ model.decls) (same : left.name = right.name) : left = right :=
  List.inj_on_of_nodup_map model.distinctNames leftIn rightIn same

theorem find?_name (model : Model) {decl : TypeDecl} (declared : decl ∈ model.decls) :
    model.find? decl.name = some decl := by
  rw [model.find?_eq_find?]
  cases found : model.decls.find? (·.name == decl.name) with
  | none =>
      have absent := List.find?_eq_none.mp found decl declared
      simp at absent
  | some other =>
      have named : other.name = decl.name := by simpa using List.find?_some found
      rw [model.eq_of_name_eq (List.mem_of_find?_eq_some found) declared named]

theorem distinctCases (model : Model) {enum : EnumType} (declared : .enum enum ∈ model.decls) :
    (enum.cases.map EnumCase.name).Nodup := by
  have accepted := model.checked.2 _ declared
  exact (checkCases_eq_ok_iff.mp accepted).2.1.1

theorem declares_of_mem_names (model : Model) {record : RecordType} {field : Field}
    {name : String} (declared : .record record ∈ model.decls) (member : field ∈ record.fields)
    (referred : name ∈ field.type.names) : model.declares name = true := by
  have accepted := model.checked.2 _ declared
  have known := ((checkFields_eq_ok_iff.mp accepted).1 field member).names_known name referred
  obtain ⟨decl, inside, same⟩ := List.mem_map.mp known
  exact (model.declares_iff name).mpr ⟨decl, inside, same⟩

theorem mem_enums {model : Model} {enum : EnumType} :
    enum ∈ model.enums ↔ .enum enum ∈ model.decls := by
  constructor
  · intro member
    obtain ⟨decl, inside, found⟩ := List.mem_filterMap.mp member
    cases decl <;> cases found
    exact inside
  · intro member
    exact List.mem_filterMap.mpr ⟨_, member, rfl⟩

theorem mem_records {model : Model} {record : RecordType} :
    record ∈ model.records ↔ .record record ∈ model.decls := by
  constructor
  · intro member
    obtain ⟨decl, inside, found⟩ := List.mem_filterMap.mp member
    cases decl <;> cases found
    exact inside
  · intro member
    exact List.mem_filterMap.mpr ⟨_, member, rfl⟩

end Model

end WireSchema
