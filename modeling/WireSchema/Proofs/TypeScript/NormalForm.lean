import WireSchema.Proofs.TypeScript.Spelling

namespace WireSchema.TypeScript

/-! The normal form of a type, and that its written form is that of its normal form.

Unions and nullables dissolve into one list of members, in which a member stands once, where it
stood first.  The layout of a type keeps members apart by how they are written, the normal form
by what they are; as no two types are written alike, both keep the same members.
-/

mutual
/-- Decides whether two members are the same. -/
def Member.decideEq : (left right : Member) → Decidable (left = right)
  | .builtin left, .builtin right => decidable_of_iff (left = right) (by simp)
  | .declared left, .declared right => decidable_of_iff (left = right) (by simp)
  | .array left, .array right =>
      match decideTypeEq left right with
      | isTrue same => isTrue (by rw [same])
      | isFalse different => isFalse (by simpa using different)
  | .builtin _, .declared _ | .builtin _, .array _ | .declared _, .builtin _
  | .declared _, .array _ | .array _, .builtin _ | .array _, .declared _ => isFalse (by simp)

/-- Decides whether two lists of members are the same. -/
def decideTypeEq : (left right : List Member) → Decidable (left = right)
  | [], [] => isTrue rfl
  | [], _ :: _ | _ :: _, [] => isFalse (by simp)
  | left :: lefts, right :: rights =>
      match Member.decideEq left right, decideTypeEq lefts rights with
      | isTrue same, isTrue sameRest => isTrue (by rw [same, sameRest])
      | isFalse different, _ => isFalse (by simp [different])
      | _, isFalse different => isFalse (by simp [different])
end

instance : DecidableEq Member := Member.decideEq

mutual
/-- The members of a type in order, as often as they are met. -/
def flatten : TypeRef → TypeExpr
  | .primitive scalar => [.builtin (.ofPrimitive scalar)]
  | .named name => [.declared name]
  | .list element => [.array (flatten element).eraseDups]
  | .nullable inner => flatten inner ++ [.builtin .null]
  | .union members => flattenAll members

def flattenAll : List TypeRef → TypeExpr
  | [] => []
  | type :: rest => flatten type ++ flattenAll rest
end

/-- The members of a type, each where it is met first. -/
def normalForm (type : TypeRef) : TypeExpr := (flatten type).eraseDups

/-- No union in the type is empty, and the model declares every type that it names. -/
structure Writable (model : Model) (type : TypeRef) : Prop where
  inhabited : ∀ members, (TypeRef.union members).Occurs type → members ≠ []
  declared : ∀ name, (TypeRef.named name).Occurs type → model.declares name = true

theorem Writable.part {model : Model} {part type : TypeRef} (writable : Writable model type)
    (occurs : part.Occurs type) : Writable model part where
  inhabited members inside := writable.inhabited members (inside.trans occurs)
  declared name inside := writable.declared name (inside.trans occurs)

/-- Types can be exported under the names that the model declares. -/
def NamesTypes (model : Model) : Prop :=
  ∀ decl ∈ model.decls, isTypeIdentifier decl.name = true

/-- Validation leaves only such types to the fields of a record. -/
theorem Writable.of_field {model : Model} {record : RecordType}
    (declared : .record record ∈ model.decls) {field : Field} (member : field ∈ record.fields) :
    Writable model field.type := by
  have wellFormed := ((validate_accepts_iff model.decls).mp model.valid).records record declared
  constructor
  · intro members occurs empty
    have wide := wellFormed.wideUnions field member members occurs
    rw [empty] at wide
    cases wide
  · intro name occurs
    exact (model.declares_iff name).mpr (wellFormed.declared field member name occurs)

theorem mem_flattenAll {members : List TypeRef} {member : Member} :
    member ∈ flattenAll members ↔ ∃ type ∈ members, member ∈ flatten type := by
  induction members with
  | nil => simp [flattenAll]
  | cons type rest ih => simp [flattenAll, ih]

def Readable (type : TypeExpr) : Prop := ∀ member ∈ type, Spells [member] member.text.toList

theorem memberTexts_eq_map (type : TypeExpr) : memberTexts type = type.map Member.text := by
  induction type with
  | nil => rfl
  | cons member rest ih => rw [memberTexts, ih, List.map_cons]

theorem spells_typeText {type : TypeExpr} (nonempty : type ≠ []) (readable : Readable type) :
    Spells type (typeText type).toList := by
  induction type with
  | nil => exact absurd rfl nonempty
  | cons member rest ih =>
      rw [Readable, List.forall_mem_cons] at readable
      cases rest with
      | nil => simpa [typeText, memberTexts] using readable.1
      | cons next rest =>
          have others := ih (List.cons_ne_nil _ _) readable.2
          have text : (typeText (member :: next :: rest)).toList =
              member.text.toList ++ " | ".toList ++ (typeText (next :: rest)).toList := by
            simp [typeText, memberTexts]
          rw [text]
          exact .more readable.1 others

theorem spells_array {element : TypeExpr} (spelled : Spells element (typeText element).toList) :
    Spells [.array element] (Member.array element).text.toList := by
  match element, spelled with
  | [member], spelled =>
      have text : (Member.array [member]).text.toList =
          (typeText [member]).toList ++ "[]".toList := by
        simp [Member.text, typeText]
      rw [text]
      exact .single spelled
  | first :: second :: rest, spelled =>
      have text : (Member.array (first :: second :: rest)).text.toList =
          "(".toList ++ (typeText (first :: second :: rest)).toList ++ ")[]".toList := by
        simp [Member.text, typeText]
      rw [text]
      exact .several spelled

theorem eraseDups_ne_nil {type : TypeExpr} (nonempty : type ≠ []) : type.eraseDups ≠ [] := by
  obtain ⟨member, rest, rfl⟩ := List.exists_cons_of_ne_nil nonempty
  rw [List.eraseDups_cons]
  exact List.cons_ne_nil _ _

theorem Readable.eraseDups {type : TypeExpr} (readable : Readable type) :
    Readable type.eraseDups :=
  fun member inside => readable member (List.mem_eraseDups.mp inside)

section

variable {model : Model} {place : FieldPlace}

theorem flatten_readable (named : NamesTypes model) {type : TypeRef}
    (writable : Writable model type) : flatten type ≠ [] ∧ Readable (flatten type) := by
  induction type using TypeRef.throughUnions with
  | primitive scalar =>
      rw [flatten]
      exact ⟨List.cons_ne_nil _ _, List.forall_mem_singleton.mpr (.builtin _)⟩
  | named name =>
      obtain ⟨decl, declared, rfl⟩ := (model.declares_iff name).mp (writable.declared name .here)
      rw [flatten]
      exact ⟨List.cons_ne_nil _ _, List.forall_mem_singleton.mpr (.declared (named decl declared))⟩
  | list element ih =>
      obtain ⟨nonempty, readable⟩ := ih (writable.part (.list .here))
      have spelled := spells_typeText (eraseDups_ne_nil nonempty) readable.eraseDups
      rw [flatten]
      exact ⟨List.cons_ne_nil _ _, List.forall_mem_singleton.mpr (spells_array spelled)⟩
  | nullable inner ih =>
      obtain ⟨nonempty, readable⟩ := ih (writable.part (.nullable .here))
      rw [flatten]
      refine ⟨by simp, List.forall_mem_append.mpr ⟨readable, ?_⟩⟩
      exact List.forall_mem_singleton.mpr (.builtin .null)
  | union members ih =>
      have part {type : TypeRef} (member : type ∈ members) : Writable model type :=
        writable.part (.union member .here)
      rw [flatten]
      constructor
      · obtain ⟨first, rest, rfl⟩ := List.exists_cons_of_ne_nil (writable.inhabited _ .here)
        have nonempty := (ih first List.mem_cons_self (part List.mem_cons_self)).1
        simp [flattenAll, nonempty]
      · intro member inside
        obtain ⟨type, listed, inside⟩ := mem_flattenAll.mp inside
        exact (ih type listed (part listed)).2 member inside

theorem Readable.text_injective {type : TypeExpr} (readable : Readable type)
    {left right : Member} (leftIn : left ∈ type) (rightIn : right ∈ type)
    (same : left.text = right.text) : left = right := by
  have spelled := readable right rightIn
  rw [← same] at spelled
  exact (List.cons.inj ((readable left leftIn).unique spelled)).1

/-- A member is written already only if it is there already. -/
theorem contains_memberTexts_iff {earlier : TypeExpr} {member : Member}
    (readable : Readable (earlier ++ [member])) :
    (memberTexts earlier.eraseDups).contains member.text = true ↔ member ∈ earlier := by
  rw [List.contains_iff_mem, memberTexts_eq_map, List.mem_map]
  constructor
  · intro written
    obtain ⟨other, inside, same⟩ := written
    have inside := List.mem_eraseDups.mp inside
    have found := readable.text_injective (by simp [inside]) (by simp) same
    exact found ▸ inside
  · intro inside
    exact ⟨member, List.mem_eraseDups.mpr inside, rfl⟩

theorem addMember_eraseDups {earlier : TypeExpr} {member : Member}
    (readable : Readable (earlier ++ [member])) :
    addMember earlier.eraseDups member = (earlier ++ [member]).eraseDups := by
  have written := contains_memberTexts_iff readable
  rw [addMember, List.eraseDups_append]
  by_cases there : member ∈ earlier
  · rw [if_pos (written.mpr there)]
    simp [List.removeAll, there]
  · rw [if_neg (mt written.mp there)]
    simp [List.removeAll, there, List.eraseDups_cons]

theorem collectAll_flattenAll {types : List TypeRef}
    (each : ∀ type ∈ types, ∀ earlier, Readable (earlier ++ flatten type) →
      collect model place earlier.eraseDups type = .ok (earlier ++ flatten type).eraseDups)
    {earlier : TypeExpr} (readable : Readable (earlier ++ flattenAll types)) :
    collectAll model place earlier.eraseDups types =
      .ok (earlier ++ flattenAll types).eraseDups := by
  induction types generalizing earlier with
  | nil => rw [collectAll, flattenAll, List.append_nil]
  | cons type rest ih =>
      rw [List.forall_mem_cons] at each
      rw [flattenAll, ← List.append_assoc] at readable ⊢
      have first : Readable (earlier ++ flatten type) :=
        fun member inside => readable member (List.mem_append_left _ inside)
      rw [collectAll, each.1 earlier first]
      exact ih each.2 readable

/-- Collecting a type behind other members keeps what comes first among all of them. -/
theorem collect_flatten (named : NamesTypes model) {type : TypeRef}
    (writable : Writable model type) {earlier : TypeExpr}
    (readable : Readable (earlier ++ flatten type)) :
    collect model place earlier.eraseDups type = .ok (earlier ++ flatten type).eraseDups := by
  induction type using TypeRef.throughUnions generalizing earlier with
  | primitive scalar =>
      rw [flatten] at readable ⊢
      rw [collect, addMember_eraseDups readable]
  | named name =>
      rw [flatten] at readable ⊢
      rw [collect, if_pos (writable.declared name .here), addMember_eraseDups readable]
  | list element ih =>
      have inner := writable.part (.list .here)
      have members : Readable ([] ++ flatten element) := (flatten_readable named inner).2
      have collected := ih inner members
      rw [flatten] at readable ⊢
      rw [List.nil_append, List.eraseDups_nil] at collected
      rw [collect, collected, ← addMember_eraseDups readable]
      rfl
  | nullable inner ih =>
      rw [flatten, ← List.append_assoc] at readable ⊢
      have first : Readable (earlier ++ flatten inner) :=
        fun member inside => readable member (List.mem_append_left _ inside)
      rw [collect, ih (writable.part (.nullable .here)) first, ← addMember_eraseDups readable]
      rfl
  | union members ih =>
      rw [flatten] at readable ⊢
      rw [collect]
      refine collectAll_flattenAll ?_ readable
      intro type member earlier before
      exact ih type member (writable.part (.union member .here)) before

theorem fieldType_eq_normalForm (named : NamesTypes model) {type : TypeRef}
    (writable : Writable model type) : fieldType model place type = .ok (normalForm type) := by
  have members : Readable ([] ++ flatten type) := (flatten_readable named writable).2
  have collected : collect model place _ type = _ := collect_flatten named writable members
  rwa [List.nil_append, List.eraseDups_nil] at collected

theorem spells_normalForm (named : NamesTypes model) {type : TypeRef}
    (writable : Writable model type) :
    Spells (normalForm type) (typeText (normalForm type)).toList :=
  have members := flatten_readable named writable
  spells_typeText (eraseDups_ne_nil members.1) members.2.eraseDups

end

/-- What a cart carries, said in two ways. -/
def load : Field where
  name := "load"
  type := .list (.union [.named "crate", .nullable (.named "letter")])
  key := "load"

def spare : Field where
  name := "spare"
  type := .list (.nullable (.union [.named "crate", .named "letter", .named "crate"]))
  key := "spare"

def depot : Model where
  decls := [.record ⟨"crate", []⟩, .record ⟨"letter", []⟩, .record ⟨"cart", [load, spare]⟩]
  valid := by decide

example : (fieldType depot ⟨"cart", "spare"⟩ spare.type).map typeText =
    .ok "(crate | letter | null)[]" := by
  decide +kernel

end WireSchema.TypeScript
