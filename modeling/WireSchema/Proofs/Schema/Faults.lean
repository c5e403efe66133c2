import Mathlib.Data.List.Induction
import WireSchema.Proofs.Schema.WellFormed

namespace WireSchema

/-! All that is wrong with a schema, and that validation reports the first of it.

The check of a schema stops at the first fault that it meets.  The lists here go on to the end:
they hold every violation of every rule, in the order in which the schema is gone through.
That they miss nothing and invent nothing is said beside them, by a relation that looks at the
schema as a whole and knows no order.
-/

/-- The fault, where its rule is broken. -/
def faultWhen (broken : Prop) [Decidable broken] (fault : SchemaFault) : List SchemaFault :=
  if broken then [fault] else []

/-- What is wrong with each item, given the items in front of it, the nearest of them first. -/
def inTurn (faultsOf : List α → α → List SchemaFault) (earlier : List α) :
    List α → List SchemaFault
  | [] => []
  | item :: rest => faultsOf earlier item ++ inTurn faultsOf (item :: earlier) rest

def nameFaults (earlier : List TypeDecl) (decl : TypeDecl) : List SchemaFault :=
  faultWhen (decl.name = "") (.emptyName .type) ++
    faultWhen (decl.name ∈ earlier.map TypeDecl.name) (.duplicateType decl.name)

def caseFaults (enum : EnumType) (earlier : List EnumCase) (case : EnumCase) : List SchemaFault :=
  faultWhen (case.name = "") (.emptyName (.case enum.name)) ++
    (faultWhen (case.value.backing ≠ enum.backing)
        (.backingMismatch enum.name case.name enum.backing case.value.backing) ++
      (faultWhen (case.name ∈ earlier.map EnumCase.name) (.duplicateCase enum.name case.name) ++
        faultWhen (case.value ∈ earlier.map EnumCase.value)
          (.duplicateValue enum.name case.name case.value)))

mutual
/-- A union comes before whatever is inside it. -/
def typeFaults (known : List String) (record field : String) : TypeRef → List SchemaFault
  | .primitive _ => []
  | .named name => faultWhen (name ∉ known) (.unknownType record field name)
  | .list inner | .nullable inner => typeFaults known record field inner
  | .union members =>
      faultWhen (members.length < 2) (.shortUnion record field) ++
        memberFaults known record field members

def memberFaults (known : List String) (record field : String) :
    List TypeRef → List SchemaFault
  | [] => []
  | member :: rest =>
      typeFaults known record field member ++ memberFaults known record field rest
end

def fieldFaults (known : List String) (record : String) (earlier : List Field) (field : Field) :
    List SchemaFault :=
  faultWhen (field.name = "") (.emptyName (.field record)) ++
    (faultWhen (field.key = "") (.emptyName (.key record)) ++
      (faultWhen (field.name ∈ earlier.map Field.name) (.duplicateField record field.name) ++
        (faultWhen (field.key ∈ earlier.map Field.key)
            (.duplicateKey record field.name field.key) ++
          typeFaults known record field.name field.type)))

def declFaults (known : List String) : TypeDecl → List SchemaFault
  | .enum decl => inTurn (caseFaults decl) [] decl.cases
  | .record decl => inTurn (fieldFaults known decl.name) [] decl.fields

/-- Every fault of a schema: those of all type names, then those inside each type. -/
def faults (decls : List TypeDecl) : List SchemaFault :=
  inTurn nameFaults [] decls ++ decls.flatMap (declFaults (decls.map TypeDecl.name))

/-- The answer of a check that finds these faults and stops at the first. -/
def report : List SchemaFault → Except SchemaFault Unit
  | [] => .ok ()
  | fault :: _ => .error fault

theorem report_append (first second : List SchemaFault) :
    report (first ++ second) = (report first >>= fun _ => report second) := by
  cases first <;> rfl

section

variable {broken : Prop} [Decidable broken] {fault : SchemaFault}

theorem report_faultWhen :
    report (faultWhen broken fault) = if broken then .error fault else .ok () := by
  by_cases holds : broken <;> simp [faultWhen, holds, report]

theorem report_faultWhen_append (rest : List SchemaFault) :
    report (faultWhen broken fault ++ rest) = if broken then .error fault else report rest := by
  by_cases holds : broken <;> simp [faultWhen, holds, report]

theorem mem_faultWhen {other : SchemaFault} :
    other ∈ faultWhen broken fault ↔ broken ∧ other = fault := by
  by_cases holds : broken <;> simp [faultWhen, holds]

end

theorem checkTypeNames_eq_report (earlier decls : List TypeDecl) :
    checkTypeNames (earlier.map TypeDecl.name) decls =
      report (inTurn nameFaults earlier decls) := by
  induction decls generalizing earlier with
  | nil => rfl
  | cons decl rest ih =>
      simp only [checkTypeNames, inTurn, nameFaults, List.append_assoc, report_faultWhen_append,
        ← ih, List.map_cons]

theorem checkCase_eq_report (enum : EnumType) (earlier : List EnumCase) (case : EnumCase) :
    checkCase enum earlier case = report (caseFaults enum earlier case) := by
  simp only [checkCase, caseFaults, report_faultWhen_append, report_faultWhen]

theorem checkCases_eq_report (enum : EnumType) (earlier cases : List EnumCase) :
    checkCases enum earlier cases = report (inTurn (caseFaults enum) earlier cases) := by
  induction cases generalizing earlier with
  | nil => rfl
  | cons case rest ih => rw [checkCases, inTurn, report_append, checkCase_eq_report, ih]

mutual
theorem checkType_eq_report (known : List String) (record field : String) :
    (type : TypeRef) → checkType known record field type =
      report (typeFaults known record field type)
  | .primitive _ => rfl
  | .named name => by simp only [checkType, typeFaults, report_faultWhen, ite_not]
  | .list inner | .nullable inner => by
      rw [checkType, typeFaults, checkType_eq_report known record field inner]
  | .union members => by
      rw [checkType, typeFaults, report_faultWhen_append,
        checkMembers_eq_report known record field members]

theorem checkMembers_eq_report (known : List String) (record field : String) :
    (members : List TypeRef) → checkMembers known record field members =
      report (memberFaults known record field members)
  | [] => rfl
  | member :: rest => by
      rw [checkMembers, memberFaults, report_append,
        checkType_eq_report known record field member,
        checkMembers_eq_report known record field rest]
end

theorem checkField_eq_report (known : List String) (record : String) (earlier : List Field)
    (field : Field) :
    checkField known record earlier field = report (fieldFaults known record earlier field) := by
  simp only [checkField, fieldFaults, report_faultWhen_append, checkType_eq_report]

theorem checkFields_eq_report (known : List String) (record : String)
    (earlier fields : List Field) :
    checkFields known record earlier fields =
      report (inTurn (fieldFaults known record) earlier fields) := by
  induction fields generalizing earlier with
  | nil => rfl
  | cons field rest ih => rw [checkFields, inTurn, report_append, checkField_eq_report, ih]

theorem checkDecl_eq_report (known : List String) (decl : TypeDecl) :
    checkDecl known decl = report (declFaults known decl) := by
  cases decl with
  | enum decl => exact checkCases_eq_report decl [] decl.cases
  | record decl => exact checkFields_eq_report known decl.name [] decl.fields

theorem checkDecls_eq_report (known : List String) (decls : List TypeDecl) :
    checkDecls known decls = report (decls.flatMap (declFaults known)) := by
  induction decls with
  | nil => rfl
  | cons decl rest ih =>
      rw [checkDecls, List.flatMap_cons, report_append, checkDecl_eq_report, ih]

/-- Stopping at the first fault finds the first of all faults. -/
theorem validate_eq_report (decls : List TypeDecl) : validate decls = report (faults decls) := by
  rw [validate, faults, report_append, ← checkTypeNames_eq_report, ← checkDecls_eq_report]
  rfl

/-- A case of the enum breaks a rule, and the fault says which case and which rule. -/
inductive EnumType.Violates (enum : EnumType) : SchemaFault → Prop where
  | unnamed {case : EnumCase} : case ∈ enum.cases → case.name = "" →
      Violates enum (.emptyName (.case enum.name))
  | mismatch {case : EnumCase} : case ∈ enum.cases → case.value.backing ≠ enum.backing →
      Violates enum (.backingMismatch enum.name case.name enum.backing case.value.backing)
  | repeatedName {before after : List EnumCase} {case : EnumCase} :
      enum.cases = before ++ case :: after → case.name ∈ before.map EnumCase.name →
      Violates enum (.duplicateCase enum.name case.name)
  | repeatedValue {before after : List EnumCase} {case : EnumCase} :
      enum.cases = before ++ case :: after → case.value ∈ before.map EnumCase.value →
      Violates enum (.duplicateValue enum.name case.name case.value)

/-- A field of the record breaks a rule, where the types `known` can be referred to. -/
inductive RecordType.Violates (known : List String) (record : RecordType) :
    SchemaFault → Prop where
  | unnamed {field : Field} : field ∈ record.fields → field.name = "" →
      Violates known record (.emptyName (.field record.name))
  | unkeyed {field : Field} : field ∈ record.fields → field.key = "" →
      Violates known record (.emptyName (.key record.name))
  | repeatedName {before after : List Field} {field : Field} :
      record.fields = before ++ field :: after → field.name ∈ before.map Field.name →
      Violates known record (.duplicateField record.name field.name)
  | repeatedKey {before after : List Field} {field : Field} :
      record.fields = before ++ field :: after → field.key ∈ before.map Field.key →
      Violates known record (.duplicateKey record.name field.name field.key)
  | unknownType {field : Field} {name : String} : field ∈ record.fields →
      (TypeRef.named name).Occurs field.type → name ∉ known →
      Violates known record (.unknownType record.name field.name name)
  | shortUnion {field : Field} {members : List TypeRef} : field ∈ record.fields →
      (TypeRef.union members).Occurs field.type → members.length < 2 →
      Violates known record (.shortUnion record.name field.name)

/-- Something in the schema breaks the rule that the fault names, where it says. -/
inductive Violates (decls : List TypeDecl) : SchemaFault → Prop where
  | unnamed {decl : TypeDecl} : decl ∈ decls → decl.name = "" →
      Violates decls (.emptyName .type)
  | repeatedName {before after : List TypeDecl} {decl : TypeDecl} :
      decls = before ++ decl :: after → decl.name ∈ before.map TypeDecl.name →
      Violates decls (.duplicateType decl.name)
  | enum {enum : EnumType} {fault : SchemaFault} : .enum enum ∈ decls → enum.Violates fault →
      Violates decls fault
  | record {record : RecordType} {fault : SchemaFault} : .record record ∈ decls →
      record.Violates (decls.map TypeDecl.name) fault → Violates decls fault

section

variable {fault : SchemaFault}

theorem mem_inTurn_iff {faultsOf : List α → α → List SchemaFault} {earlier items : List α} :
    fault ∈ inTurn faultsOf earlier items ↔
      ∃ before item after, items = before ++ item :: after ∧
        fault ∈ faultsOf (before.reverse ++ earlier) item := by
  induction items generalizing earlier with
  | nil => simp [inTurn]
  | cons first rest ih =>
      rw [inTurn, List.mem_append, ih]
      constructor
      · intro listed
        cases listed with
        | inl here => exact ⟨[], first, rest, rfl, here⟩
        | inr later =>
            obtain ⟨before, item, after, same, listed⟩ := later
            exact ⟨first :: before, item, after, by rw [same]; rfl, by simpa using listed⟩
      · intro listed
        obtain ⟨before, item, after, same, listed⟩ := listed
        cases before with
        | nil =>
            cases same
            exact .inl listed
        | cons _ before =>
            cases same
            exact .inr ⟨before, item, after, rfl, by simpa using listed⟩

theorem mem_nameFaults_iff {decls : List TypeDecl} :
    fault ∈ inTurn nameFaults [] decls ↔
      (∃ decl ∈ decls, decl.name = "" ∧ fault = .emptyName .type) ∨
        ∃ before decl after, decls = before ++ decl :: after ∧
          decl.name ∈ before.map TypeDecl.name ∧ fault = .duplicateType decl.name := by
  simp only [mem_inTurn_iff, nameFaults, List.append_nil, List.mem_append, mem_faultWhen,
    List.map_reverse, List.mem_reverse]
  constructor
  · intro listed
    obtain ⟨before, decl, after, same, unnamed | repeated⟩ := listed
    · exact .inl ⟨decl, by simp [same], unnamed⟩
    · exact .inr ⟨before, decl, after, same, repeated⟩
  · intro violated
    cases violated with
    | inl unnamed =>
        obtain ⟨decl, member, unnamed⟩ := unnamed
        obtain ⟨before, after, same⟩ := List.append_of_mem member
        exact ⟨before, decl, after, same, .inl unnamed⟩
    | inr repeated =>
        obtain ⟨before, decl, after, same, repeated⟩ := repeated
        exact ⟨before, decl, after, same, .inr repeated⟩

theorem EnumType.mem_faults_iff {enum : EnumType} :
    fault ∈ inTurn (caseFaults enum) [] enum.cases ↔ enum.Violates fault := by
  simp only [mem_inTurn_iff, caseFaults, List.append_nil, List.mem_append, mem_faultWhen,
    List.map_reverse, List.mem_reverse]
  constructor
  · intro listed
    obtain ⟨before, case, after, same, broken⟩ := listed
    have member : case ∈ enum.cases := by simp [same]
    obtain ⟨empty, rfl⟩ | ⟨other, rfl⟩ | ⟨earlier, rfl⟩ | ⟨earlier, rfl⟩ := broken
    · exact .unnamed member empty
    · exact .mismatch member other
    · exact .repeatedName same earlier
    · exact .repeatedValue same earlier
  · intro violated
    cases violated with
    | @unnamed case member empty =>
        obtain ⟨before, after, same⟩ := List.append_of_mem member
        exact ⟨before, case, after, same, .inl ⟨empty, rfl⟩⟩
    | @mismatch case member other =>
        obtain ⟨before, after, same⟩ := List.append_of_mem member
        exact ⟨before, case, after, same, .inr (.inl ⟨other, rfl⟩)⟩
    | @repeatedName before after case same earlier =>
        exact ⟨before, case, after, same, .inr (.inr (.inl ⟨earlier, rfl⟩))⟩
    | @repeatedValue before after case same earlier =>
        exact ⟨before, case, after, same, .inr (.inr (.inr ⟨earlier, rfl⟩))⟩

theorem mem_memberFaults_iff {known : List String} {record field : String}
    {members : List TypeRef} :
    fault ∈ memberFaults known record field members ↔
      ∃ member ∈ members, fault ∈ typeFaults known record field member := by
  induction members with
  | nil => simp [memberFaults]
  | cons member rest ih => simp [memberFaults, ih]

theorem mem_typeFaults_iff {known : List String} {record field : String} {type : TypeRef} :
    fault ∈ typeFaults known record field type ↔
      (∃ name, (TypeRef.named name).Occurs type ∧ name ∉ known ∧
          fault = .unknownType record field name) ∨
        ∃ members, (TypeRef.union members).Occurs type ∧ members.length < 2 ∧
          fault = .shortUnion record field := by
  induction type using TypeRef.throughUnions with
  | primitive scalar => simp [typeFaults]
  | named name => simp [typeFaults, mem_faultWhen]
  | list element ih => simp [typeFaults, ih]
  | nullable inner ih => simp [typeFaults, ih]
  | union members ih =>
      simp only [typeFaults, List.mem_append, mem_faultWhen, mem_memberFaults_iff,
        TypeRef.occurs_union_iff, reduceCtorEq, false_or, TypeRef.union.injEq]
      constructor
      · intro listed
        cases listed with
        | inl short => exact .inr ⟨members, .inl rfl, short⟩
        | inr inside =>
            obtain ⟨member, listed, inside⟩ := inside
            cases (ih member listed).mp inside with
            | inl unknown =>
                obtain ⟨name, occurs, unknown⟩ := unknown
                exact .inl ⟨name, ⟨member, listed, occurs⟩, unknown⟩
            | inr short =>
                obtain ⟨others, occurs, short⟩ := short
                exact .inr ⟨others, .inr ⟨member, listed, occurs⟩, short⟩
      · intro violated
        cases violated with
        | inl unknown =>
            obtain ⟨name, ⟨member, listed, occurs⟩, unknown⟩ := unknown
            exact .inr ⟨member, listed, (ih member listed).mpr (.inl ⟨name, occurs, unknown⟩)⟩
        | inr short =>
            obtain ⟨others, rfl | ⟨member, listed, occurs⟩, short⟩ := short
            · exact .inl short
            · exact .inr ⟨member, listed, (ih member listed).mpr (.inr ⟨others, occurs, short⟩)⟩

theorem RecordType.mem_faults_iff {known : List String} {record : RecordType} :
    fault ∈ inTurn (fieldFaults known record.name) [] record.fields ↔
      record.Violates known fault := by
  simp only [mem_inTurn_iff, fieldFaults, List.append_nil, List.mem_append, mem_faultWhen,
    mem_typeFaults_iff, List.map_reverse, List.mem_reverse]
  constructor
  · intro listed
    obtain ⟨before, field, after, same, broken⟩ := listed
    have member : field ∈ record.fields := by simp [same]
    obtain ⟨empty, rfl⟩ | ⟨empty, rfl⟩ | ⟨earlier, rfl⟩ | ⟨earlier, rfl⟩ |
      ⟨name, occurs, unknown, rfl⟩ | ⟨members, occurs, short, rfl⟩ := broken
    · exact .unnamed member empty
    · exact .unkeyed member empty
    · exact .repeatedName same earlier
    · exact .repeatedKey same earlier
    · exact .unknownType member occurs unknown
    · exact .shortUnion member occurs short
  · intro violated
    cases violated with
    | @unnamed field member empty =>
        obtain ⟨before, after, same⟩ := List.append_of_mem member
        exact ⟨before, field, after, same, .inl ⟨empty, rfl⟩⟩
    | @unkeyed field member empty =>
        obtain ⟨before, after, same⟩ := List.append_of_mem member
        exact ⟨before, field, after, same, .inr (.inl ⟨empty, rfl⟩)⟩
    | @repeatedName before after field same earlier =>
        exact ⟨before, field, after, same, .inr (.inr (.inl ⟨earlier, rfl⟩))⟩
    | @repeatedKey before after field same earlier =>
        exact ⟨before, field, after, same, .inr (.inr (.inr (.inl ⟨earlier, rfl⟩)))⟩
    | @unknownType field name member occurs unknown =>
        obtain ⟨before, after, same⟩ := List.append_of_mem member
        exact ⟨before, field, after, same,
          .inr (.inr (.inr (.inr (.inl ⟨name, occurs, unknown, rfl⟩))))⟩
    | @shortUnion field members member occurs short =>
        obtain ⟨before, after, same⟩ := List.append_of_mem member
        exact ⟨before, field, after, same,
          .inr (.inr (.inr (.inr (.inr ⟨members, occurs, short, rfl⟩))))⟩

theorem mem_faults_iff {decls : List TypeDecl} :
    fault ∈ faults decls ↔ Violates decls fault := by
  rw [faults, List.mem_append, mem_nameFaults_iff, List.mem_flatMap]
  constructor
  · intro listed
    obtain (⟨decl, member, empty, rfl⟩ | ⟨before, decl, after, same, earlier, rfl⟩) |
      ⟨decl, member, inside⟩ := listed
    · exact .unnamed member empty
    · exact .repeatedName same earlier
    · cases decl with
      | enum decl => exact .enum member (EnumType.mem_faults_iff.mp inside)
      | record decl => exact .record member (RecordType.mem_faults_iff.mp inside)
  · intro violated
    cases violated with
    | unnamed member empty => exact .inl (.inl ⟨_, member, empty, rfl⟩)
    | repeatedName same earlier => exact .inl (.inr ⟨_, _, _, same, earlier, rfl⟩)
    | enum member violated =>
        exact .inr ⟨_, member, EnumType.mem_faults_iff.mpr violated⟩
    | record member violated =>
        exact .inr ⟨_, member, RecordType.mem_faults_iff.mpr violated⟩

end

theorem nodup_map_iff_unrepeated {f : α → β} {items : List α} :
    (items.map f).Nodup ↔
      ∀ before item after, items = before ++ item :: after → f item ∉ before.map f := by
  constructor
  · intro distinct before item after same repeated
    rw [same, List.map_append, List.map_cons] at distinct
    exact (List.nodup_append.mp distinct).2.2 _ repeated _ List.mem_cons_self rfl
  · intro unrepeated
    induction items using List.reverseRecOn with
    | nil => exact List.nodup_nil
    | append_singleton items last ih =>
        have distinct := ih fun before item after same =>
          unrepeated before item (after ++ [last]) (by simp [same])
        rw [List.map_append, List.map_singleton]
        exact distinct.append (List.nodup_singleton _)
          (List.disjoint_singleton.mpr (unrepeated items last [] rfl))

theorem EnumType.wellFormed_iff {enum : EnumType} :
    enum.WellFormed ↔ ∀ fault, ¬ enum.Violates fault := by
  constructor
  · intro wellFormed fault violated
    cases violated with
    | unnamed member empty => exact wellFormed.named _ member empty
    | mismatch member other => exact other (wellFormed.backed _ member)
    | repeatedName same earlier =>
        exact nodup_map_iff_unrepeated.mp wellFormed.distinctNames _ _ _ same earlier
    | repeatedValue same earlier =>
        exact nodup_map_iff_unrepeated.mp wellFormed.distinctValues _ _ _ same earlier
  · intro sound
    refine ⟨?_, ?_, ?_, ?_⟩
    · intro case member empty
      exact sound _ (.unnamed member empty)
    · exact nodup_map_iff_unrepeated.mpr fun before case after same earlier =>
        sound _ (.repeatedName same earlier)
    · intro case member
      by_contra other
      exact sound _ (.mismatch member other)
    · exact nodup_map_iff_unrepeated.mpr fun before case after same earlier =>
        sound _ (.repeatedValue same earlier)

theorem RecordType.wellFormed_iff {decls : List TypeDecl} {record : RecordType} :
    record.WellFormed decls ↔ ∀ fault, ¬ record.Violates (decls.map TypeDecl.name) fault := by
  constructor
  · intro wellFormed fault violated
    cases violated with
    | unnamed member empty => exact wellFormed.named _ member empty
    | unkeyed member empty => exact wellFormed.keyed _ member empty
    | repeatedName same earlier =>
        exact nodup_map_iff_unrepeated.mp wellFormed.distinctNames _ _ _ same earlier
    | repeatedKey same earlier =>
        exact nodup_map_iff_unrepeated.mp wellFormed.distinctKeys _ _ _ same earlier
    | unknownType member occurs unknown =>
        exact unknown (List.mem_map.mpr (wellFormed.declared _ member _ occurs))
    | shortUnion member occurs short =>
        exact absurd (wellFormed.wideUnions _ member _ occurs) (Nat.not_le.mpr short)
  · intro sound
    refine ⟨?_, ?_, ?_, ?_, ?_, ?_⟩
    · intro field member empty
      exact sound _ (.unnamed member empty)
    · exact nodup_map_iff_unrepeated.mpr fun before field after same earlier =>
        sound _ (.repeatedName same earlier)
    · intro field member empty
      exact sound _ (.unkeyed member empty)
    · exact nodup_map_iff_unrepeated.mpr fun before field after same earlier =>
        sound _ (.repeatedKey same earlier)
    · intro field member name occurs
      by_contra undeclared
      exact sound _ (.unknownType member occurs (mt List.mem_map.mp undeclared))
    · intro field member members occurs
      by_contra short
      exact sound _ (.shortUnion member occurs (Nat.not_le.mp short))

theorem wellFormed_iff_unviolated {decls : List TypeDecl} :
    WellFormed decls ↔ ∀ fault, ¬ Violates decls fault := by
  constructor
  · intro wellFormed fault violated
    cases violated with
    | unnamed member empty => exact wellFormed.named _ member empty
    | repeatedName same earlier =>
        exact nodup_map_iff_unrepeated.mp wellFormed.distinctNames _ _ _ same earlier
    | enum member violated =>
        exact EnumType.wellFormed_iff.mp (wellFormed.enums _ member) _ violated
    | record member violated =>
        exact RecordType.wellFormed_iff.mp (wellFormed.records _ member) _ violated
  · intro sound
    refine ⟨?_, ?_, ?_, ?_⟩
    · intro decl member empty
      exact sound _ (.unnamed member empty)
    · exact nodup_map_iff_unrepeated.mpr fun before decl after same earlier =>
        sound _ (.repeatedName same earlier)
    · intro enum member
      exact EnumType.wellFormed_iff.mpr fun fault violated => sound _ (.enum member violated)
    · intro record member
      exact RecordType.wellFormed_iff.mpr fun fault violated => sound _ (.record member violated)

theorem faults_eq_nil_iff {decls : List TypeDecl} : faults decls = [] ↔ WellFormed decls := by
  simp only [wellFormed_iff_unviolated, ← mem_faults_iff, List.eq_nil_iff_forall_not_mem]

/-- Of a schema that is not well formed, validation reports the first of all its faults. -/
theorem validate_first_fault {decls : List TypeDecl} (malformed : ¬ WellFormed decls) :
    ∃ first others, faults decls = first :: others ∧ validate decls = .error first ∧
      ∀ fault, fault ∈ first :: others ↔ Violates decls fault := by
  have some := mt faults_eq_nil_iff.mp malformed
  obtain ⟨first, others, listed⟩ := List.exists_cons_of_ne_nil some
  refine ⟨first, others, listed, ?_, ?_⟩
  · rw [validate_eq_report, listed]
    rfl
  · intro fault
    rw [← listed, mem_faults_iff]

/-- A schema with faults in every corner.  The union comes before the name inside it. -/
def muddled : List TypeDecl :=
  [ .record ⟨"User",
      [ ⟨"age", .list (.union [.nullable (.named "Age")]), "age"⟩,
        ⟨"age", .primitive .integer, ""⟩ ]⟩,
    .enum ⟨"Color", .integer,
      [⟨"RED", .integer 0⟩, ⟨"", .integer 0⟩, ⟨"RED", .string "red"⟩]⟩ ]

example : faults muddled =
    [ .shortUnion "User" "age", .unknownType "User" "age" "Age", .emptyName (.key "User"),
      .duplicateField "User" "age", .emptyName (.case "Color"),
      .duplicateValue "Color" "" (.integer 0), .backingMismatch "Color" "RED" .integer .string,
      .duplicateCase "Color" "RED" ] := by
  decide

theorem muddled_first_fault :
    ¬ WellFormed muddled ∧ ∃ others, faults muddled = .shortUnion "User" "age" :: others ∧
      validate muddled = .error (.shortUnion "User" "age") ∧
      ∀ fault, fault ∈ .shortUnion "User" "age" :: others ↔ Violates muddled fault := by
  have first : (faults muddled).head? = some (.shortUnion "User" "age") := by decide
  have malformed : ¬ WellFormed muddled := by
    rw [← faults_eq_nil_iff]
    intro empty
    rw [empty] at first
    cases first
  obtain ⟨fault, others, listed, reported, violated⟩ := validate_first_fault malformed
  rw [listed, List.head?_cons, Option.some.injEq] at first
  subst first
  exact ⟨malformed, others, listed, reported, violated⟩

end WireSchema
