import WireSchema.Go.TypeExpr
import WireSchema.Proofs.Outcome

namespace WireSchema

/-! The Go type of a field, for all types at once.

Go can say every type that has no union in it, once the names in it are known.  What it
says is a run of marks for slices and pointers in front of one leaf, and the leaf alone
tells which declaration the type refers to.
-/

/-- Induction over a type down to its unions, whose members no Go type looks at. -/
@[elab_as_elim] theorem TypeRef.outsideUnions {motive : TypeRef → Prop}
    (primitive : ∀ scalar, motive (.primitive scalar)) (named : ∀ name, motive (.named name))
    (list : ∀ element, motive element → motive (.list element))
    (nullable : ∀ inner, motive inner → motive (.nullable inner))
    (union : ∀ members, motive (.union members)) (type : TypeRef) : motive type :=
  @TypeRef.rec motive (fun _ => True) primitive named list nullable
    (fun members _ => union members) trivial (fun _ _ _ _ => trivial) type

/-- A union occurs in the type, at any depth. -/
def TypeRef.ContainsUnion : TypeRef → Prop
  | .primitive _ | .named _ => False
  | .list inner | .nullable inner => inner.ContainsUnion
  | .union _ => True

namespace Go

inductive Leaf where
  | builtin (type : Builtin)
  | declared (identifier : String)
deriving DecidableEq

def Leaf.text : Leaf → String
  | .builtin type => type.text
  | .declared identifier => identifier

namespace TypeExpr

def leaf : TypeExpr → Leaf
  | .builtin type => .builtin type
  | .declared identifier => .declared identifier
  | .slice element => element.leaf
  | .pointer target => target.leaf

/-- The marks in front of the leaf, from the outside in. -/
def marks : TypeExpr → List String
  | .builtin _ | .declared _ => []
  | .slice element => "[]" :: element.marks
  | .pointer target => "*" :: target.marks

theorem text_eq (expr : TypeExpr) : expr.text = String.join expr.marks ++ expr.leaf.text := by
  induction expr with
  | builtin type => simp [text, marks, leaf, Leaf.text]
  | declared identifier => simp [text, marks, leaf, Leaf.text]
  | slice element ih => rw [text, ih, marks, leaf, String.join_cons, String.append_assoc]
  | pointer target ih => rw [text, ih, marks, leaf, String.join_cons, String.append_assoc]

theorem eq_slice_or_pointer {expr : TypeExpr} {mark : String} (member : mark ∈ expr.marks) :
    mark = "[]" ∨ mark = "*" := by
  induction expr with
  | builtin type => cases member
  | declared identifier => cases member
  | slice element ih =>
      rcases List.mem_cons.mp member with same | inner
      · exact .inl same
      · exact ih inner
  | pointer target ih =>
      rcases List.mem_cons.mp member with same | inner
      · exact .inr same
      · exact ih inner

end TypeExpr

section

variable {model : Model} {symbols : Symbols} {place : FieldPlace} {type : TypeRef}
  {expr : TypeExpr} {identifier name : String}

theorem layType_named_eq_ok_iff :
    layType model symbols place (.named name) = .ok expr ↔
      model.declares name = true ∧ ∃ identifier, symbols.type? name = some identifier ∧
        .declared identifier = expr := by
  cases found : symbols.type? name with
  | none =>
      simp only [layType, found, reduceCtorEq, false_and, exists_const, and_false, iff_false]
      split <;> simp
  | some identifier => simp [layType, found, when_eq_ok_iff]

theorem layType_list_eq_ok_iff {element : TypeRef} :
    layType model symbols place (.list element) = .ok expr ↔
      ∃ inner, layType model symbols place element = .ok inner ∧ .slice inner = expr := by
  simp [layType, bind_eq_ok_iff]

theorem layType_nullable_eq_ok_iff {inner : TypeRef} :
    layType model symbols place (.nullable inner) = .ok expr ↔
      ∃ bare, layType model symbols place inner = .ok bare ∧
        (if acceptsNil inner then bare else .pointer bare) = expr := by
  simp only [layType, bind_eq_ok_iff, Except.ok.injEq]

/-- Go can say a type exactly when no union occurs in it and its names have identifiers. -/
theorem layType_exists_iff :
    (∃ expr, layType model symbols place type = .ok expr) ↔
      ¬ type.ContainsUnion ∧
        ∀ name ∈ type.names, model.declares name = true ∧ (symbols.type? name).isSome := by
  induction type using TypeRef.outsideUnions with
  | primitive scalar => simp [layType, TypeRef.ContainsUnion, TypeRef.names]
  | named name =>
      simp only [layType_named_eq_ok_iff, TypeRef.ContainsUnion, TypeRef.names,
        List.mem_singleton, forall_eq, not_false_eq_true, true_and, Option.isSome_iff_exists]
      constructor
      · rintro ⟨_, declared, identifier, found, _⟩
        exact ⟨declared, identifier, found⟩
      · rintro ⟨declared, identifier, found⟩
        exact ⟨_, declared, identifier, found, rfl⟩
  | list element ih =>
      simp only [layType_list_eq_ok_iff, existsAndEq, and_true, TypeRef.ContainsUnion,
        TypeRef.names, ih]
  | nullable inner ih =>
      simp only [layType_nullable_eq_ok_iff, existsAndEq, and_true, TypeRef.ContainsUnion,
        TypeRef.names, ih]
  | union members => simp [layType, TypeRef.ContainsUnion]

/-- The leaf stands for the one name there is, or for no name. -/
inductive LeafOf (model : Model) (symbols : Symbols) : List String → Leaf → Prop where
  | builtin (type : Builtin) : LeafOf model symbols [] (.builtin type)
  | declared {name identifier : String} : model.declares name = true →
      symbols.type? name = some identifier → LeafOf model symbols [name] (.declared identifier)

theorem layType_leaf (laid : layType model symbols place type = .ok expr) :
    LeafOf model symbols type.names expr.leaf := by
  induction type using TypeRef.outsideUnions generalizing expr with
  | primitive scalar => cases laid; exact .builtin _
  | named name =>
      obtain ⟨declared, identifier, found, rfl⟩ := layType_named_eq_ok_iff.mp laid
      exact .declared declared found
  | list element ih =>
      obtain ⟨inner, laidInner, rfl⟩ := layType_list_eq_ok_iff.mp laid
      have leaf := ih laidInner
      exact leaf
  | nullable inner ih =>
      obtain ⟨bare, laidBare, rfl⟩ := layType_nullable_eq_ok_iff.mp laid
      have leaf : (if acceptsNil inner then bare else .pointer bare).leaf = bare.leaf := by
        split <;> rfl
      rw [leaf]
      exact ih laidBare
  | union members => cases laid

/-- A value held without any mark is of a bare named type: slices carry a mark of their
own, and a nullable value goes behind a pointer unless its type is a slice or `any`. -/
theorem layType_eq_declared
    (laid : layType model symbols place type = .ok (.declared identifier)) :
    ∃ name, type = .named name ∧ symbols.type? name = some identifier := by
  induction type using TypeRef.outsideUnions with
  | primitive scalar => cases laid
  | named name =>
      obtain ⟨_, _, found, same⟩ := layType_named_eq_ok_iff.mp laid
      cases same
      exact ⟨name, rfl, found⟩
  | list element =>
      obtain ⟨_, _, same⟩ := layType_list_eq_ok_iff.mp laid
      cases same
  | nullable inner ih =>
      obtain ⟨bare, laidBare, same⟩ := layType_nullable_eq_ok_iff.mp laid
      split at same
      · rename_i accepts
        subst same
        obtain ⟨name, rfl, _⟩ := ih laidBare
        cases accepts
      · cases same
  | union members => cases laid

theorem fieldType_eq_ok_iff :
    fieldType model symbols place type = .ok expr ↔
      ∃ bare, layType model symbols place type = .ok bare ∧
        (match type with
          | .named name => if model.embeds name place.owner then .pointer bare else bare
          | _ => bare) = expr := by
  rw [fieldType, bind_eq_ok_iff]
  cases type <;> simp

theorem fieldType_exists_iff :
    (∃ expr, fieldType model symbols place type = .ok expr) ↔
      ¬ type.ContainsUnion ∧
        ∀ name ∈ type.names, model.declares name = true ∧ (symbols.type? name).isSome := by
  simp only [fieldType_eq_ok_iff, existsAndEq, and_true, layType_exists_iff]

theorem fieldType_leaf (laid : fieldType model symbols place type = .ok expr) :
    LeafOf model symbols type.names expr.leaf := by
  obtain ⟨bare, laidBare, rfl⟩ := fieldType_eq_ok_iff.mp laid
  have leaf := layType_leaf laidBare
  split
  · split
    · exact leaf
    · exact leaf
  · exact leaf

/-- A bare named field holds its value behind a pointer exactly when the value would lead
back to the owner. -/
theorem fieldType_named (laid : fieldType model symbols place (.named name) = .ok expr) :
    ∃ identifier, model.declares name = true ∧ symbols.type? name = some identifier ∧
      expr = if model.embeds name place.owner then .pointer (.declared identifier)
        else .declared identifier := by
  obtain ⟨bare, laidBare, rfl⟩ := fieldType_eq_ok_iff.mp laid
  obtain ⟨declares, identifier, found, rfl⟩ := layType_named_eq_ok_iff.mp laidBare
  exact ⟨identifier, declares, found, rfl⟩

theorem fieldType_eq_declared
    (laid : fieldType model symbols place type = .ok (.declared identifier)) :
    ∃ name, type = .named name ∧ symbols.type? name = some identifier ∧
      model.embeds name place.owner = false := by
  obtain ⟨bare, laidBare, same⟩ := fieldType_eq_ok_iff.mp laid
  split at same
  · rename_i name
    split at same
    · cases same
    · rename_i apart
      subst same
      obtain ⟨other, sameType, found⟩ := layType_eq_declared laidBare
      cases sameType
      exact ⟨name, rfl, found, by simpa using apart⟩
  · rename_i other
    subst same
    obtain ⟨name, rfl, _⟩ := layType_eq_declared laidBare
    exact absurd rfl (other name)

end

end Go

end WireSchema
