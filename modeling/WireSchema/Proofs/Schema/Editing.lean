import WireSchema.Proofs.Schema.Faults

namespace WireSchema

/-! What a single edit can break in a well-formed schema.

A schema grows by a declaration, a case or a field, and shrinks from its end.  Whatever was in
order before an addition stays in order, because an addition only makes names known; so what is
wrong afterwards is wrong with the thing that was added.  Dropping the last declaration makes one
name unknown, and breaks the fields that refer to it and nothing else.
-/

/-- The enum with one more case, behind the others. -/
def EnumType.addCase (enum : EnumType) (case : EnumCase) : EnumType :=
  { enum with cases := enum.cases ++ [case] }

/-- The record with one more field, behind the others. -/
def RecordType.addField (record : RecordType) (field : Field) : RecordType :=
  { record with fields := record.fields ++ [field] }

def TypeDecl.WellFormed (decls : List TypeDecl) : TypeDecl → Prop
  | .enum decl => decl.WellFormed
  | .record decl => decl.WellFormed decls

/-- A part of the declaration breaks a rule, where the types `known` can be referred to. -/
def TypeDecl.Violates (known : List String) : TypeDecl → SchemaFault → Prop
  | .enum decl, fault => decl.Violates fault
  | .record decl, fault => decl.Violates known fault

/-- The declaration can follow those of the schema. -/
structure TypeDecl.Fits (decls : List TypeDecl) (decl : TypeDecl) : Prop where
  named : decl.name ≠ ""
  newName : decl.name ∉ decls.map TypeDecl.name
  wellFormed : decl.WellFormed (decls ++ [decl])

/-- A fault of the declaration behind those of the schema.  Inside, it may refer to itself. -/
inductive TypeDecl.Refused (decls : List TypeDecl) (decl : TypeDecl) : SchemaFault → Prop where
  | unnamed : decl.name = "" → Refused decls decl (.emptyName .type)
  | repeatedName : decl.name ∈ decls.map TypeDecl.name →
      Refused decls decl (.duplicateType decl.name)
  | inside {fault : SchemaFault} :
      decl.Violates ((decls ++ [decl]).map TypeDecl.name) fault → Refused decls decl fault

/-- The case can follow those of the enum. -/
structure EnumCase.Fits (enum : EnumType) (case : EnumCase) : Prop where
  named : case.name ≠ ""
  newName : case.name ∉ enum.cases.map EnumCase.name
  backed : case.value.backing = enum.backing
  newValue : case.value ∉ enum.cases.map EnumCase.value

/-- A fault of the case behind those of the enum.  It says the names of both, as far as there
are any. -/
inductive EnumCase.Refused (enum : EnumType) (case : EnumCase) : SchemaFault → Prop where
  | unnamed : case.name = "" → Refused enum case (.emptyName (.case enum.name))
  | mismatch : case.name ≠ "" → case.value.backing ≠ enum.backing →
      Refused enum case
        (.backingMismatch enum.name case.name enum.backing case.value.backing)
  | repeatedName : case.name ≠ "" → case.name ∈ enum.cases.map EnumCase.name →
      Refused enum case (.duplicateCase enum.name case.name)
  | repeatedValue : case.name ≠ "" → case.value ∈ enum.cases.map EnumCase.value →
      Refused enum case (.duplicateValue enum.name case.name case.value)

/-- The field can follow those of the record. -/
structure Field.Fits (decls : List TypeDecl) (record : RecordType) (field : Field) : Prop where
  named : field.name ≠ ""
  keyed : field.key ≠ ""
  newName : field.name ∉ record.fields.map Field.name
  newKey : field.key ∉ record.fields.map Field.key
  declared : ∀ name, (TypeRef.named name).Occurs field.type → ∃ decl ∈ decls, decl.name = name
  wideUnions : ∀ members, (TypeRef.union members).Occurs field.type → 2 ≤ members.length

/-- A fault of the field behind those of the record.  It says the name of the record. -/
inductive Field.Refused (decls : List TypeDecl) (record : RecordType) (field : Field) :
    SchemaFault → Prop where
  | unnamed : field.name = "" → Refused decls record field (.emptyName (.field record.name))
  | unkeyed : field.key = "" → Refused decls record field (.emptyName (.key record.name))
  | repeatedName : field.name ∈ record.fields.map Field.name →
      Refused decls record field (.duplicateField record.name field.name)
  | repeatedKey : field.key ∈ record.fields.map Field.key →
      Refused decls record field (.duplicateKey record.name field.name field.key)
  | unknownType {name : String} : (TypeRef.named name).Occurs field.type →
      name ∉ decls.map TypeDecl.name →
      Refused decls record field (.unknownType record.name field.name name)
  | shortUnion {members : List TypeRef} : (TypeRef.union members).Occurs field.type →
      members.length < 2 → Refused decls record field (.shortUnion record.name field.name)

def Field.RefersTo (field : Field) (name : String) : Prop :=
  (TypeRef.named name).Occurs field.type

def TypeDecl.RefersTo (decl : TypeDecl) (name : String) : Prop :=
  ∃ record, decl = .record record ∧ ∃ field ∈ record.fields, field.RefersTo name

/-- Of all fields that refer to the name, the first in the order of the schema. -/
inductive FirstReference (name : String) : List TypeDecl → RecordType → Field → Prop where
  | intro {before after : List TypeDecl} {record : RecordType} {earlier later : List Field}
      {field : Field} : (∀ decl ∈ before, ¬ decl.RefersTo name) →
      record.fields = earlier ++ field :: later → (∀ other ∈ earlier, ¬ other.RefersTo name) →
      field.RefersTo name →
      FirstReference name (before ++ .record record :: after) record field

/-- Accepted exactly if it fits, and refused for reasons of one kind only. -/
structure Decides (outcome : Except SchemaFault Unit) (fits : Prop)
    (refused : SchemaFault → Prop) : Prop where
  accepts_iff : outcome = .ok () ↔ fits
  refuses : ∀ fault, outcome = .error fault → refused fault

/-- Each edit of the schema is judged by what it adds, or by the references it cuts. -/
structure EditsLocally (decls : List TypeDecl) : Prop where
  declare : ∀ decl,
    Decides (validate (decls ++ [decl])) (decl.Fits decls) (decl.Refused decls)
  addCase : ∀ before enum after case, decls = before ++ .enum enum :: after →
    Decides (validate (before ++ .enum (enum.addCase case) :: after))
      (case.Fits enum) (case.Refused enum)
  addField : ∀ before record after field, decls = before ++ .record record :: after →
    Decides (validate (before ++ .record (record.addField field) :: after))
      (field.Fits decls record) (field.Refused decls record)
  dropLast : ∀ others last, decls = others ++ [last] →
    Decides (validate others) (∀ decl ∈ others, ¬ decl.RefersTo last.name)
      (fun fault => ∃ record field, FirstReference last.name others record field ∧
        fault = .unknownType record.name field.name last.name)

theorem report_eq_ok_iff {faults : List SchemaFault} : report faults = .ok () ↔ faults = [] := by
  cases faults <;> simp [report]

theorem mem_of_report {faults : List SchemaFault} {fault : SchemaFault}
    (reported : report faults = .error fault) : fault ∈ faults := by
  cases faults with
  | nil => cases reported
  | cons first others =>
      cases reported
      exact List.mem_cons_self

theorem validate_eq_ok_iff_faults {decls : List TypeDecl} :
    validate decls = .ok () ↔ faults decls = [] := by
  rw [validate_eq_report, report_eq_ok_iff]

section

variable {faultsOf : List α → α → List SchemaFault}

theorem inTurn_append (earlier first second : List α) :
    inTurn faultsOf earlier (first ++ second) =
      inTurn faultsOf earlier first ++ inTurn faultsOf (first.reverse ++ earlier) second := by
  induction first generalizing earlier with
  | nil => rfl
  | cons item first ih =>
      rw [List.cons_append, inTurn, inTurn, ih, List.append_assoc, List.reverse_cons,
        List.append_assoc, List.singleton_append]

theorem inTurn_snoc {items : List α} (sound : inTurn faultsOf [] items = []) (item : α) :
    inTurn faultsOf [] (items ++ [item]) = faultsOf items.reverse item := by
  rw [inTurn_append, sound, inTurn, inTurn, List.nil_append, List.append_nil, List.append_nil]

/-- The first fault belongs to an item that only sound items stand before. -/
theorem report_inTurn {earlier items : List α} {fault : SchemaFault}
    (reported : report (inTurn faultsOf earlier items) = .error fault) :
    ∃ before item after, items = before ++ item :: after ∧
      inTurn faultsOf earlier before = [] ∧
      report (faultsOf (before.reverse ++ earlier) item) = .error fault := by
  induction items generalizing earlier with
  | nil => cases reported
  | cons item rest ih =>
      rw [inTurn, report_append] at reported
      cases here : faultsOf earlier item with
      | nil =>
          rw [here] at reported
          obtain ⟨before, later, after, same, sound, reported⟩ := ih reported
          refine ⟨item :: before, later, after, by rw [same]; rfl, ?_, ?_⟩
          · rw [inTurn, here, sound]
            rfl
          · simpa using reported
      | cons first others =>
          refine ⟨[], item, rest, rfl, rfl, ?_⟩
          rw [here] at reported
          rw [List.reverse_nil, List.nil_append, here]
          exact reported

theorem flatMap_eq_inTurn (faultsOf : α → List SchemaFault) (earlier items : List α) :
    items.flatMap faultsOf = inTurn (fun _ => faultsOf) earlier items := by
  induction items generalizing earlier with
  | nil => rfl
  | cons item rest ih => rw [List.flatMap_cons, inTurn, ih]

end

theorem faults_eq_nil_iff_parts {decls : List TypeDecl} :
    faults decls = [] ↔ inTurn nameFaults [] decls = [] ∧
      ∀ decl ∈ decls, declFaults (decls.map TypeDecl.name) decl = [] := by
  rw [faults, List.append_eq_nil_iff, List.flatMap_eq_nil_iff]

theorem nameFaults_eq_nil_iff {decls : List TypeDecl} :
    inTurn nameFaults [] decls = [] ↔
      "" ∉ decls.map TypeDecl.name ∧ (decls.map TypeDecl.name).Nodup := by
  rw [← report_eq_ok_iff, ← checkTypeNames_eq_report, List.map_nil, checkTypeNames_eq_ok_iff]
  simp

section

variable {known more : List String} {fault : SchemaFault}

theorem TypeDecl.mem_faults_iff {decl : TypeDecl} :
    fault ∈ declFaults known decl ↔ decl.Violates known fault := by
  cases decl with
  | enum enum => exact EnumType.mem_faults_iff
  | record record => exact RecordType.mem_faults_iff

theorem RecordType.Violates.fewer {record : RecordType} (subset : known ⊆ more)
    (violated : record.Violates more fault) : record.Violates known fault := by
  cases violated with
  | unnamed member empty => exact .unnamed member empty
  | unkeyed member empty => exact .unkeyed member empty
  | repeatedName same earlier => exact .repeatedName same earlier
  | repeatedKey same earlier => exact .repeatedKey same earlier
  | unknownType member occurs unknown =>
      exact .unknownType member occurs fun inside => unknown (subset inside)
  | shortUnion member occurs short => exact .shortUnion member occurs short

/-- A declaration without fault stays so when more names become known. -/
theorem declFaults_mono {decl : TypeDecl} (subset : known ⊆ more)
    (sound : declFaults known decl = []) : declFaults more decl = [] := by
  rw [List.eq_nil_iff_forall_not_mem] at sound ⊢
  intro fault listed
  apply sound fault
  rw [TypeDecl.mem_faults_iff] at listed ⊢
  cases decl with
  | enum enum => exact listed
  | record record => exact RecordType.Violates.fewer subset listed

end

section

variable {decls before after : List TypeDecl}

/-- The faults behind an appended declaration are those of the declaration. -/
theorem faults_declare (sound : faults decls = []) (decl : TypeDecl) :
    faults (decls ++ [decl]) =
      nameFaults decls.reverse decl ++
        declFaults ((decls ++ [decl]).map TypeDecl.name) decl := by
  obtain ⟨names, each⟩ := faults_eq_nil_iff_parts.mp sound
  have known : decls.map TypeDecl.name ⊆ (decls ++ [decl]).map TypeDecl.name := by simp
  have others : decls.flatMap (declFaults ((decls ++ [decl]).map TypeDecl.name)) = [] :=
    List.flatMap_eq_nil_iff.mpr fun other member => declFaults_mono known (each other member)
  rw [faults, inTurn_snoc names, List.flatMap_append, others, List.flatMap_singleton,
    List.nil_append]

/-- The faults after a declaration has changed in place, but for its name, are those that it
has now. -/
theorem faults_replace {old : TypeDecl} (sound : faults (before ++ old :: after) = [])
    (new : TypeDecl) (sameName : new.name = old.name) :
    faults (before ++ new :: after) =
      declFaults ((before ++ old :: after).map TypeDecl.name) new := by
  have sameNames : (before ++ new :: after).map TypeDecl.name =
      (before ++ old :: after).map TypeDecl.name := by
    simp [sameName]
  obtain ⟨names, each⟩ := faults_eq_nil_iff_parts.mp sound
  rw [nameFaults_eq_nil_iff, ← sameNames, ← nameFaults_eq_nil_iff] at names
  have front : before.flatMap (declFaults ((before ++ old :: after).map TypeDecl.name)) = [] :=
    List.flatMap_eq_nil_iff.mpr fun other member => each other (by simp [member])
  have back : after.flatMap (declFaults ((before ++ old :: after).map TypeDecl.name)) = [] :=
    List.flatMap_eq_nil_iff.mpr fun other member => each other (by simp [member])
  rw [faults, names, sameNames, List.flatMap_append, List.flatMap_cons, front, back,
    List.append_nil, List.nil_append, List.nil_append]

theorem validate_addCase {enum : EnumType}
    (accepted : validate (before ++ .enum enum :: after) = .ok ()) (case : EnumCase) :
    validate (before ++ .enum (enum.addCase case) :: after) =
      checkCase enum enum.cases.reverse case := by
  have sound := validate_eq_ok_iff_faults.mp accepted
  have cases : inTurn (caseFaults enum) [] enum.cases = [] :=
    (faults_eq_nil_iff_parts.mp sound).2 (.enum enum) (by simp)
  have edited : inTurn (caseFaults (enum.addCase case)) [] (enum.addCase case).cases =
      caseFaults enum enum.cases.reverse case := inTurn_snoc cases case
  rw [validate_eq_report, faults_replace sound (.enum (enum.addCase case)) rfl, declFaults, edited,
    checkCase_eq_report]

theorem validate_addField {record : RecordType}
    (accepted : validate (before ++ .record record :: after) = .ok ()) (field : Field) :
    validate (before ++ .record (record.addField field) :: after) =
      checkField ((before ++ .record record :: after).map TypeDecl.name) record.name
        record.fields.reverse field := by
  have sound := validate_eq_ok_iff_faults.mp accepted
  have fields := (faults_eq_nil_iff_parts.mp sound).2 (.record record) (by simp)
  rw [declFaults] at fields
  have edited : inTurn (fieldFaults ((before ++ .record record :: after).map TypeDecl.name)
      (record.addField field).name) [] (record.addField field).fields = _ :=
    inTurn_snoc fields field
  rw [validate_eq_report, faults_replace sound (.record (record.addField field)) rfl, declFaults,
    edited, checkField_eq_report]

variable {last : TypeDecl}

/-- A field that was in order can break no rule but to refer to the name that is gone. -/
theorem fieldFault_dropped {record : String} {earlier : List Field} {field : Field}
    {fault : SchemaFault}
    (sound : fieldFaults ((decls ++ [last]).map TypeDecl.name) record earlier field = [])
    (listed : fault ∈ fieldFaults (decls.map TypeDecl.name) record earlier field) :
    field.RefersTo last.name ∧ fault = .unknownType record field.name last.name := by
  simp only [fieldFaults, List.append_eq_nil_iff] at sound
  obtain ⟨named, keyed, newName, newKey, typed⟩ := sound
  simp only [fieldFaults, named, keyed, newName, newKey, List.nil_append] at listed
  have unlisted (other : SchemaFault) :
      other ∉ typeFaults ((decls ++ [last]).map TypeDecl.name) record field.name field.type := by
    rw [typed]
    exact List.not_mem_nil
  rcases mem_typeFaults_iff.mp listed with unknown | short
  · obtain ⟨name, occurs, unknown, same⟩ := unknown
    have gone : name = last.name := by
      by_contra other
      refine unlisted _ (mem_typeFaults_iff.mpr (.inl ⟨name, occurs, ?_, same⟩))
      simpa [other] using unknown
    subst gone
    exact ⟨occurs, same⟩
  · exact absurd (mem_typeFaults_iff.mpr (.inr short)) (unlisted fault)

theorem not_refersTo_of_unknown {known : List String} {decl : TypeDecl} {name : String}
    (sound : declFaults known decl = []) (unknown : name ∉ known) : ¬ decl.RefersTo name := by
  intro refers
  obtain ⟨record, rfl, field, member, occurs⟩ := refers
  have listed : _ ∈ declFaults known (.record record) :=
    TypeDecl.mem_faults_iff.mpr (RecordType.Violates.unknownType member occurs unknown)
  rw [sound] at listed
  exact List.not_mem_nil listed

theorem name_dropped (sound : faults (decls ++ [last]) = []) :
    inTurn nameFaults [] decls = [] ∧ last.name ∉ decls.map TypeDecl.name := by
  have names := (faults_eq_nil_iff_parts.mp sound).1
  have distinct := (nameFaults_eq_nil_iff.mp names).2
  rw [inTurn_append, List.append_eq_nil_iff] at names
  refine ⟨names.1, ?_⟩
  rw [List.map_append, List.map_singleton] at distinct
  exact List.disjoint_singleton.mp (List.disjoint_of_nodup_append distinct)

theorem firstReference_of_dropped (sound : faults (decls ++ [last]) = []) {fault : SchemaFault}
    (reported : validate decls = .error fault) :
    ∃ record field, FirstReference last.name decls record field ∧
      fault = .unknownType record.name field.name last.name := by
  obtain ⟨names, unknown⟩ := name_dropped sound
  rw [validate_eq_report, faults, names, List.nil_append, flatMap_eq_inTurn _ []] at reported
  obtain ⟨before, decl, after, rfl, soundBefore, reported⟩ := report_inTurn reported
  rw [← flatMap_eq_inTurn, List.flatMap_eq_nil_iff] at soundBefore
  have was := (faults_eq_nil_iff_parts.mp sound).2 decl (by simp)
  cases decl with
  | enum enum =>
      have none :
          declFaults ((before ++ .enum enum :: after).map TypeDecl.name) (.enum enum) = [] := was
      rw [none] at reported
      cases reported
  | record record =>
      obtain ⟨earlier, field, later, split, soundEarlier, reported⟩ := report_inTurn reported
      rw [declFaults, split, inTurn_append, inTurn, List.append_eq_nil_iff,
        List.append_eq_nil_iff] at was
      obtain ⟨refers, same⟩ := fieldFault_dropped was.2.1 (mem_of_report reported)
      refine ⟨record, field, .intro ?_ split ?_ refers, same⟩
      · intro other member
        exact not_refersTo_of_unknown (soundBefore other member) unknown
      · intro other member occurs
        have cut : declFaults _ (.record { record with fields := earlier }) = [] := soundEarlier
        exact not_refersTo_of_unknown cut unknown ⟨_, rfl, other, member, occurs⟩

end

section

variable {decls : List TypeDecl} {fault : SchemaFault}

theorem refused_of_declare (sound : faults decls = []) {decl : TypeDecl}
    (reported : validate (decls ++ [decl]) = .error fault) : decl.Refused decls fault := by
  rw [validate_eq_report, faults_declare sound] at reported
  have listed := mem_of_report reported
  simp only [nameFaults, List.mem_append, mem_faultWhen, List.map_reverse, List.mem_reverse]
    at listed
  obtain (⟨empty, rfl⟩ | ⟨earlier, rfl⟩) | inside := listed
  · exact .unnamed empty
  · exact .repeatedName earlier
  · exact .inside (TypeDecl.mem_faults_iff.mp inside)

theorem fits_of_declare (sound : faults decls = []) {decl : TypeDecl} :
    validate (decls ++ [decl]) = .ok () ↔ decl.Fits decls := by
  have wellFormed : checkDecl ((decls ++ [decl]).map TypeDecl.name) decl = .ok () ↔
      decl.WellFormed (decls ++ [decl]) := by
    cases decl with
    | enum enum => exact checkDecl_enum_eq_ok_iff
    | record record => exact checkDecl_record_eq_ok_iff
  rw [validate_eq_report, faults_declare sound, report_append, andThen_eq_ok_iff,
    ← checkDecl_eq_report, wellFormed]
  simp only [nameFaults, report_faultWhen_append, report_faultWhen, unless_eq_ok_iff, and_true,
    List.map_reverse, List.mem_reverse]
  constructor
  · intro accepted
    exact ⟨accepted.1.1, accepted.1.2, accepted.2⟩
  · intro fits
    exact ⟨⟨fits.named, fits.newName⟩, fits.wellFormed⟩

theorem EnumCase.refused_of_check {enum : EnumType} {case : EnumCase}
    (reported : checkCase enum enum.cases.reverse case = .error fault) :
    case.Refused enum fault := by
  simp only [checkCase, unless_eq_error_iff, List.map_reverse, List.mem_reverse, reduceCtorEq,
    and_false, or_false] at reported
  obtain ⟨empty, rfl⟩ | ⟨named, ⟨other, rfl⟩ | ⟨_, ⟨earlier, rfl⟩ | ⟨_, earlier, rfl⟩⟩⟩ := reported
  · exact .unnamed empty
  · exact .mismatch named other
  · exact .repeatedName named earlier
  · exact .repeatedValue named earlier

theorem EnumCase.fits_of_check {enum : EnumType} {case : EnumCase} :
    checkCase enum enum.cases.reverse case = .ok () ↔ case.Fits enum := by
  simp only [checkCase_eq_ok_iff, List.map_reverse, List.mem_reverse]
  constructor
  · intro accepted
    exact ⟨accepted.1.1, accepted.2.1, accepted.1.2, accepted.2.2⟩
  · intro fits
    exact ⟨⟨fits.named, fits.backed⟩, fits.newName, fits.newValue⟩

theorem Field.refused_of_check {record : RecordType} {field : Field}
    (reported : checkField (decls.map TypeDecl.name) record.name record.fields.reverse field =
      .error fault) : field.Refused decls record fault := by
  simp only [checkField, unless_eq_error_iff, checkType_eq_report, List.map_reverse,
    List.mem_reverse] at reported
  obtain ⟨empty, rfl⟩ | ⟨_, ⟨empty, rfl⟩ | ⟨_, ⟨earlier, rfl⟩ | ⟨_, ⟨earlier, rfl⟩ |
    ⟨_, reported⟩⟩⟩⟩ := reported
  · exact .unnamed empty
  · exact .unkeyed empty
  · exact .repeatedName earlier
  · exact .repeatedKey earlier
  · rcases mem_typeFaults_iff.mp (mem_of_report reported) with unknown | short
    · obtain ⟨name, occurs, unknown, rfl⟩ := unknown
      exact .unknownType occurs unknown
    · obtain ⟨members, occurs, short, rfl⟩ := short
      exact .shortUnion occurs short

theorem Field.fits_of_check {record : RecordType} {field : Field} :
    checkField (decls.map TypeDecl.name) record.name record.fields.reverse field = .ok () ↔
      field.Fits decls record := by
  simp only [checkField_eq_ok_iff, List.map_reverse, List.mem_reverse]
  constructor
  · intro accepted
    obtain ⟨wellFormed, newName, newKey⟩ := accepted
    refine ⟨wellFormed.named, wellFormed.keyed, newName, newKey, ?_, ?_⟩
    · intro name occurs
      exact List.mem_map.mp (wellFormed.names_known name (TypeRef.mem_names_iff.mpr occurs))
    · exact TypeRef.hasWideUnions_iff.mp wellFormed.wideUnions
  · intro fits
    refine ⟨⟨fits.named, fits.keyed, ?_, ?_⟩, fits.newName, fits.newKey⟩
    · intro name referred
      exact List.mem_map.mpr (fits.declared name (TypeRef.mem_names_iff.mp referred))
    · exact TypeRef.hasWideUnions_iff.mpr fits.wideUnions

theorem dropped_iff {last : TypeDecl} (sound : faults (decls ++ [last]) = []) :
    validate decls = .ok () ↔ ∀ decl ∈ decls, ¬ decl.RefersTo last.name := by
  constructor
  · intro accepted decl member
    have each := (faults_eq_nil_iff_parts.mp (validate_eq_ok_iff_faults.mp accepted)).2
    exact not_refersTo_of_unknown (each decl member) (name_dropped sound).2
  · intro unused
    cases outcome : validate decls with
    | ok _ => rfl
    | error fault =>
        obtain ⟨record, field, first, _⟩ := firstReference_of_dropped sound outcome
        cases first with
        | intro _ split _ refers =>
            refine absurd ?_ (unused (.record record) (by simp))
            exact ⟨record, rfl, field, by simp [split], refers⟩

end

/-- In a schema that is accepted, an addition fails only for a fault of what is added, and
dropping the last declaration only at the first field that refers to it. -/
theorem validate_editsLocally {decls : List TypeDecl} (accepted : validate decls = .ok ()) :
    EditsLocally decls where
  declare decl := by
    have sound := validate_eq_ok_iff_faults.mp accepted
    exact ⟨fits_of_declare sound, fun _ => refused_of_declare sound⟩
  addCase before enum after case split := by
    subst split
    rw [validate_addCase accepted]
    exact ⟨EnumCase.fits_of_check, fun _ => EnumCase.refused_of_check⟩
  addField before record after field split := by
    subst split
    rw [validate_addField accepted]
    exact ⟨Field.fits_of_check, fun _ => Field.refused_of_check⟩
  dropLast others last split := by
    subst split
    have sound := validate_eq_ok_iff_faults.mp accepted
    exact ⟨dropped_iff sound, fun _ => firstReference_of_dropped sound⟩

/-- Ships of some kind at berths, which only the ships refer to. -/
def harbour : List TypeDecl :=
  [ .enum ⟨"Kind", .string, [⟨"TUG", .string "tug"⟩]⟩,
    .record ⟨"Ship",
      [ ⟨"kind", .named "Kind", "kind"⟩,
        ⟨"berths", .list (.union [.primitive .string, .nullable (.named "Berth")]), "berths"⟩ ]⟩,
    .record ⟨"Berth", [⟨"neighbour", .nullable (.named "Berth"), "next"⟩]⟩ ]

example : validate harbour.dropLast = .error (.unknownType "Ship" "berths" "Berth") := by decide

theorem harbour_editsLocally : validate harbour = .ok () ∧ EditsLocally harbour :=
  ⟨by decide, validate_editsLocally (by decide)⟩

end WireSchema
