import WireSchema.Proofs.Wire.Encoded

namespace WireSchema.Wire

/-! Decoding never makes a type deeper than the JSON it was read from.

A reader that refuses deep nesting therefore bounds the types of every schema that it lets
through.  Structures are followed through their drafts: a part that has been taken up keeps
the bound of the content it came from.
-/

mutual
theorem depth_le_of_decodeType {mode : Mode} (json : Json) {type : TypeRef}
    (decoded : decodeType mode json = .ok type) : type.depth ≤ json.nesting := by
  cases json with
  | object members closed =>
      rw [decodeType] at decoded
      exact depth_le_of_decodeTypeEntry members decoded
  | string name =>
      rw [decodeType, decodeBareType] at decoded
      split at decoded <;> cases decoded
  | null => simp [decodeType] at decoded
  | bool => simp [decodeType] at decoded
  | number => simp [decodeType] at decoded
  | array => simp [decodeType] at decoded
  | broken => simp [decodeType] at decoded

theorem depth_le_of_decodeTypeEntry {mode : Mode} {closed : Bool}
    (members : List (String × Json)) {type : TypeRef}
    (decoded : decodeTypeEntry mode closed members = .ok type) :
    type.depth ≤ 1 + Json.nestingMembers members := by
  cases members with
  | nil => simp [decodeTypeEntry] at decoded
  | cons member others =>
      obtain ⟨name, content⟩ := member
      rw [decodeTypeEntry] at decoded
      split at decoded
      · cases decoded
      · have within : content.nesting ≤ Json.nestingMembers ((name, content) :: others) :=
          Nat.le_max_left _ _
        simp only at decoded
        split at decoded
        · obtain ⟨_, entry, decoded⟩ := bind_eq_ok_iff.mp decoded
          obtain ⟨scalar, _, entry⟩ := bind_eq_ok_iff.mp entry
          cases entry
          obtain ⟨_, rfl⟩ := requireClosed_eq_ok_iff.mp decoded
          exact Nat.le_add_right 1 _
        split at decoded
        · obtain ⟨_, entry, decoded⟩ := bind_eq_ok_iff.mp decoded
          obtain ⟨named, _, entry⟩ := bind_eq_ok_iff.mp entry
          cases entry
          obtain ⟨_, rfl⟩ := requireClosed_eq_ok_iff.mp decoded
          exact Nat.le_add_right 1 _
        split at decoded
        · obtain ⟨element, inner, decoded⟩ := bind_eq_ok_iff.mp decoded
          obtain ⟨_, rfl⟩ := requireClosed_eq_ok_iff.mp decoded
          have deep := depth_le_of_decodeType content inner
          rw [TypeRef.depth]
          omega
        split at decoded
        · obtain ⟨nested, inner, decoded⟩ := bind_eq_ok_iff.mp decoded
          obtain ⟨_, rfl⟩ := requireClosed_eq_ok_iff.mp decoded
          have deep := depth_le_of_decodeType content inner
          rw [TypeRef.depth]
          omega
        split at decoded
        · obtain ⟨union, entry, decoded⟩ := bind_eq_ok_iff.mp decoded
          obtain ⟨_, rfl⟩ := requireClosed_eq_ok_iff.mp decoded
          have deep := depth_le_of_decodeUnion content entry
          omega
        · cases decoded

theorem depth_le_of_decodeUnion {mode : Mode} (json : Json) {type : TypeRef}
    (decoded : decodeUnion mode json = .ok type) : type.depth ≤ 1 + json.nesting := by
  cases json with
  | array items closed =>
      rw [decodeUnion] at decoded
      obtain ⟨members, inner, rest⟩ := bind_eq_ok_iff.mp decoded
      obtain ⟨_, rfl⟩ := requireClosed_eq_ok_iff.mp rest
      have deep := membersDepth_le_of_decodeTypes items inner
      rw [TypeRef.depth, Json.nesting]
      omega
  | object => simp [decodeUnion] at decoded
  | string => simp [decodeUnion] at decoded
  | null => simp [decodeUnion] at decoded
  | bool => simp [decodeUnion] at decoded
  | number => simp [decodeUnion] at decoded
  | broken => simp [decodeUnion] at decoded

theorem membersDepth_le_of_decodeTypes {mode : Mode} (items : List Json) {types : List TypeRef}
    (decoded : decodeTypes mode items = .ok types) :
    TypeRef.membersDepth types ≤ Json.nestingItems items := by
  cases items with
  | nil =>
      cases decoded
      exact Nat.le_refl _
  | cons item rest =>
      rw [decodeTypes] at decoded
      obtain ⟨type, head, decoded⟩ := bind_eq_ok_iff.mp decoded
      obtain ⟨types, tail, decoded⟩ := bind_eq_ok_iff.mp decoded
      cases decoded
      have headDeep := depth_le_of_decodeType item head
      have tailDeep := membersDepth_le_of_decodeTypes rest tail
      rw [TypeRef.membersDepth, Json.nestingItems]
      omega
end

section

variable {mode : Mode} {json : Json} {depth : Nat}

theorem decodeField_depth (shallow : json.nesting ≤ depth + 1) {field : Field}
    (decoded : decodeField mode json = .ok field) : field.type.depth ≤ depth := by
  have keeps : Keeps depth (fun draft : FieldDraft => ∀ type ∈ draft.type, type.depth ≤ depth)
      (fieldShape mode).slots := by
    intro slot member draft content filled within kept step
    simp only [fieldShape, List.mem_cons, List.not_mem_nil, or_false] at member
    rcases member with rfl | rfl | rfl
    · obtain ⟨_, _, step⟩ := bind_eq_ok_iff.mp step
      cases step
      exact kept
    · obtain ⟨type, typed, step⟩ := bind_eq_ok_iff.mp step
      cases step
      intro taken same
      cases same
      exact Nat.le_trans (depth_le_of_decodeType content typed) within
    · obtain ⟨_, _, step⟩ := bind_eq_ok_iff.mp step
      cases step
      exact kept
  obtain ⟨missing, draft, kept, finished⟩ :=
    Shape.draft_of_decode keeps (by simp [fieldShape]) shallow decoded
  obtain ⟨name, _, finished⟩ := bind_eq_ok_iff.mp finished
  obtain ⟨type, present, finished⟩ := bind_eq_ok_iff.mp finished
  cases finished
  exact kept type (require_eq_ok_iff.mp present)

theorem decodeRecord_depth (shallow : json.nesting ≤ depth + 3) {record : RecordType}
    (decoded : decodeRecord mode json = .ok record) :
    ∀ field ∈ record.fields, field.type.depth ≤ depth := by
  have keeps : Keeps (depth + 2)
      (fun draft : RecordDraft => ∀ fields ∈ draft.fields, ∀ field ∈ fields,
        field.type.depth ≤ depth) (recordShape mode).slots := by
    intro slot member draft content filled within kept step
    simp only [recordShape, List.mem_cons, List.not_mem_nil, or_false] at member
    rcases member with rfl | rfl
    · obtain ⟨_, _, step⟩ := bind_eq_ok_iff.mp step
      cases step
      exact kept
    · obtain ⟨fields, listed, step⟩ := bind_eq_ok_iff.mp step
      cases step
      intro taken same field place
      cases same
      obtain ⟨item, shallow, decoded⟩ := decodeSequence_item within listed place
      exact decodeField_depth shallow decoded
  obtain ⟨missing, draft, kept, finished⟩ :=
    Shape.draft_of_decode keeps (by simp [recordShape]) shallow decoded
  obtain ⟨name, _, finished⟩ := bind_eq_ok_iff.mp finished
  cases finished
  cases present : draft.fields with
  | none => simp
  | some fields => exact kept fields present

theorem decodeDecl_depth (shallow : json.nesting ≤ depth + 3) {decl : TypeDecl}
    (decoded : decodeDecl json = .ok decl) : decl.NestsWithin depth := by
  obtain ⟨kind, decode, content, member, within, decoded⟩ :=
    decodeTagged_content shallow decoded
  simp only [List.mem_cons, List.not_mem_nil, or_false, Prod.mk.injEq] at member
  rcases member with ⟨rfl, rfl⟩ | ⟨rfl, rfl⟩
  · obtain ⟨enum, _, decoded⟩ := bind_eq_ok_iff.mp decoded
    cases decoded
    trivial
  · obtain ⟨record, fields, decoded⟩ := bind_eq_ok_iff.mp decoded
    cases decoded
    exact decodeRecord_depth within fields

/-- A schema read from JSON has types of bounded depth. -/
theorem decodeSchema_depth (shallow : json.nesting ≤ depth + 5) {decls : List TypeDecl}
    (decoded : decodeSchema json = .ok decls) : ∀ decl ∈ decls, decl.NestsWithin depth := by
  have keeps : Keeps (depth + 4)
      (fun draft : SchemaDraft => ∀ decls ∈ draft.decls, ∀ decl ∈ decls, decl.NestsWithin depth)
      schemaShape.slots := by
    intro slot member draft content filled within kept step
    simp only [schemaShape, List.mem_singleton] at member
    subst member
    obtain ⟨decls, listed, step⟩ := bind_eq_ok_iff.mp step
    cases step
    intro taken same decl place
    cases same
    obtain ⟨item, shallow, decoded⟩ := decodeSequence_item within listed place
    exact decodeDecl_depth shallow decoded
  obtain ⟨missing, draft, kept, finished⟩ :=
    Shape.draft_of_decode keeps (by simp [schemaShape]) shallow decoded
  cases finished
  cases present : draft.decls with
  | none => simp
  | some decls => exact kept decls present

end

end WireSchema.Wire
