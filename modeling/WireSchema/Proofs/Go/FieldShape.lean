import WireSchema.Proofs.Go.FieldType
import WireSchema.Proofs.Schema.Containment
import WireSchema.Proofs.Schema.WellFormed

namespace WireSchema

/-! What the Go type of a field looks like.

A type without unions is one leaf with lists and nullables around it, in any order.  Its Go type
is as many slices as there are lists, and inside them the leaf, perhaps behind a pointer.  A
nullable right around the leaf asks for the pointer, a second one adds nothing, and one around a
list is lost, because a slice can be nil by itself.
-/

inductive Wrapper where
  | list
  | nullable
deriving DecidableEq

namespace TypeRef

/-- What stands around the leaf of a type, from the outside in. -/
def wrappers : TypeRef → List Wrapper
  | .list element => .list :: element.wrappers
  | .nullable inner => .nullable :: inner.wrappers
  | .primitive _ | .named _ | .union _ => []

/-- What is left of a type without the lists and nullables around it. -/
def core : TypeRef → TypeRef
  | .list element => element.core
  | .nullable inner => inner.core
  | type => type

/-- A nullable stands around the leaf, and no list between them. -/
def NullableLeaf (type : TypeRef) : Prop :=
  ∃ outer inner, type.wrappers = outer ++ .nullable :: inner ∧ .list ∉ inner

theorem nullableLeaf_list_iff {element : TypeRef} :
    (TypeRef.list element).NullableLeaf ↔ element.NullableLeaf := by
  constructor
  · intro nullable
    obtain ⟨outer, inner, split, unlisted⟩ := nullable
    cases outer with
    | nil => cases split
    | cons _ outer =>
        exact ⟨outer, inner, (List.cons.inj split).2, unlisted⟩
  · intro nullable
    obtain ⟨outer, inner, split, unlisted⟩ := nullable
    exact ⟨.list :: outer, inner, by rw [wrappers, split]; rfl, unlisted⟩

theorem nullableLeaf_nullable_iff {inner : TypeRef} :
    (TypeRef.nullable inner).NullableLeaf ↔ .list ∉ inner.wrappers ∨ inner.NullableLeaf := by
  constructor
  · intro nullable
    obtain ⟨outer, below, split, unlisted⟩ := nullable
    cases outer with
    | nil =>
        cases split
        exact .inl unlisted
    | cons _ outer =>
        exact .inr ⟨outer, below, (List.cons.inj split).2, unlisted⟩
  · intro nullable
    cases nullable with
    | inl unlisted => exact ⟨[], inner.wrappers, rfl, unlisted⟩
    | inr nullable =>
        obtain ⟨outer, below, split, unlisted⟩ := nullable
        exact ⟨.nullable :: outer, below, by rw [wrappers, split]; rfl, unlisted⟩

theorem not_nullableLeaf {type : TypeRef} (bare : type.wrappers = []) : ¬ type.NullableLeaf := by
  intro nullable
  obtain ⟨outer, inner, split, _⟩ := nullable
  rw [bare] at split
  exact absurd split (by simp)

theorem core_eq {type : TypeRef} (bare : type.wrappers = []) : type.core = type := by
  cases type with
  | primitive scalar => rfl
  | named name => rfl
  | list element => cases bare
  | nullable inner => cases bare
  | union members => rfl

/-- Once something stands around the leaf, one more nullable changes nothing. -/
theorem nullableLeaf_wrapped_iff {inner : TypeRef} (wrapped : inner.wrappers ≠ []) :
    (TypeRef.nullable inner).NullableLeaf ↔ inner.NullableLeaf := by
  rw [nullableLeaf_nullable_iff]
  refine ⟨fun either => either.elim ?_ id, .inr⟩
  intro unlisted
  cases inner with
  | primitive scalar => exact absurd rfl wrapped
  | named name => exact absurd rfl wrapped
  | list element => exact absurd List.mem_cons_self unlisted
  | nullable inner =>
      exact nullableLeaf_nullable_iff.mpr (.inl fun listed => unlisted (.tail _ listed))
  | union members => exact absurd rfl wrapped

theorem core_of_union {type : TypeRef} {members : List TypeRef}
    (occurs : (TypeRef.union members).Occurs type) : ∃ outermost, type.core = .union outermost := by
  induction type using outsideUnions with
  | primitive scalar => simp at occurs
  | named name => simp at occurs
  | list element ih => exact ih (by simpa using occurs)
  | nullable inner ih => exact ih (by simpa using occurs)
  | union outermost => exact ⟨outermost, rfl⟩

end TypeRef

namespace Go

/-- What the leaf of a type becomes. -/
inductive LeafFor (model : Model) (symbols : Symbols) : TypeRef → TypeExpr → Prop where
  | primitive (scalar : Primitive) :
      LeafFor model symbols (.primitive scalar) (.builtin (.ofPrimitive scalar))
  | named {name identifier : String} : model.declares name = true →
      symbols.type? name = some identifier →
      LeafFor model symbols (.named name) (.declared identifier)

/-- The leaf itself, or a pointer to it if one is needed, and the mark that says so. -/
inductive HeldAs (needed : Prop) (leaf : TypeExpr) : String → TypeExpr → Prop where
  | pointer : needed → HeldAs needed leaf "*" (.pointer leaf)
  | value : ¬ needed → HeldAs needed leaf "" leaf

namespace HeldAs

variable {needed other : Prop} {leaf held : TypeExpr} {mark : String}

theorem congr (same : needed ↔ other) (holds : HeldAs needed leaf mark held) :
    HeldAs other leaf mark held :=
  propext same ▸ holds

theorem text_eq (holds : HeldAs needed leaf mark held) : held.text = mark ++ leaf.text := by
  cases holds with
  | pointer _ => rfl
  | value _ => rw [String.empty_append]

end HeldAs

def slices : Nat → TypeExpr → TypeExpr
  | 0, element => element
  | count + 1, element => .slice (slices count element)

theorem text_slices (count : Nat) (element : TypeExpr) :
    (slices count element).text = String.join (List.replicate count "[]") ++ element.text := by
  induction count with
  | zero => simp [slices]
  | succ count ih =>
      rw [slices, TypeExpr.text, ih, List.replicate_succ, String.join_cons, String.append_assoc]

/-- The leaf may be missing, and its type cannot say so by itself. -/
def MayBeMissing (type : TypeRef) : Prop := type.core ≠ .primitive .mixed ∧ type.NullableLeaf

section

variable {model : Model} {symbols : Symbols} {place : FieldPlace} {type : TypeRef}
  {leaf : TypeExpr}

theorem layType_leafFor (resolved : LeafFor model symbols type leaf) :
    layType model symbols place type = .ok leaf := by
  cases resolved with
  | primitive scalar => rfl
  | named declared found => exact layType_named_eq_ok_iff.mpr ⟨declared, _, found, rfl⟩

theorem acceptsNil_of_wrapped (wrapped : type.wrappers ≠ []) : acceptsNil type = true := by
  cases type with
  | primitive scalar => exact absurd rfl wrapped
  | named name => exact absurd rfl wrapped
  | list element => rfl
  | nullable inner => rfl
  | union members => exact absurd rfl wrapped

theorem acceptsNil_leafFor_iff (resolved : LeafFor model symbols type leaf) :
    acceptsNil type = true ↔ type = .primitive .mixed := by
  cases resolved with
  | primitive scalar => cases scalar <;> simp [acceptsNil]
  | named _ _ => simp [acceptsNil]

theorem layType_slices (resolved : LeafFor model symbols type.core leaf) :
    ∃ mark held, HeldAs (MayBeMissing type) leaf mark held ∧
      layType model symbols place type = .ok (slices (type.wrappers.count .list) held) := by
  induction type using TypeRef.outsideUnions with
  | primitive scalar =>
      exact ⟨"", leaf, .value fun missing => TypeRef.not_nullableLeaf rfl missing.2,
        layType_leafFor resolved⟩
  | named name =>
      exact ⟨"", leaf, .value fun missing => TypeRef.not_nullableLeaf rfl missing.2,
        layType_leafFor resolved⟩
  | list element ih =>
      obtain ⟨mark, held, holds, laid⟩ := ih resolved
      refine ⟨mark, held, holds.congr (and_congr_right' TypeRef.nullableLeaf_list_iff.symm), ?_⟩
      rw [TypeRef.wrappers, List.count_cons_self]
      exact layType_list_eq_ok_iff.mpr ⟨_, laid, rfl⟩
  | nullable inner ih =>
      have count : (TypeRef.nullable inner).wrappers.count .list = inner.wrappers.count .list :=
        List.count_cons_of_ne (by decide)
      rw [count]
      by_cases bare : inner.wrappers = []
      · rw [TypeRef.core, TypeRef.core_eq bare] at resolved
        have nullable : (TypeRef.nullable inner).NullableLeaf :=
          TypeRef.nullableLeaf_nullable_iff.mpr (.inl (by simp [bare]))
        have laid : layType model symbols place (.nullable inner) =
            .ok (if acceptsNil inner then leaf else .pointer leaf) :=
          layType_nullable_eq_ok_iff.mpr ⟨leaf, layType_leafFor resolved, rfl⟩
        have accepts := acceptsNil_leafFor_iff resolved
        rw [laid, bare]
        cases nilable : acceptsNil inner with
        | true =>
            refine ⟨"", leaf, .value fun missing => missing.1 ?_, rfl⟩
            rw [TypeRef.core, TypeRef.core_eq bare]
            exact accepts.mp nilable
        | false =>
            refine ⟨"*", .pointer leaf, .pointer ⟨?_, nullable⟩, rfl⟩
            rw [TypeRef.core, TypeRef.core_eq bare]
            intro mixed
            rw [accepts.mpr mixed] at nilable
            cases nilable
      · obtain ⟨mark, held, holds, laid⟩ := ih resolved
        refine ⟨mark, held, holds.congr ?_, ?_⟩
        · exact and_congr_right' (TypeRef.nullableLeaf_wrapped_iff bare).symm
        · exact layType_nullable_eq_ok_iff.mpr
            ⟨_, laid, if_pos (acceptsNil_of_wrapped bare)⟩
  | union members => cases resolved

theorem layType_union (core : ∃ members, type.core = .union members) :
    layType model symbols place type =
      .error (.unsupported place.owner (.unionField place.field)) := by
  induction type using TypeRef.outsideUnions with
  | primitive scalar => simp [TypeRef.core] at core
  | named name => simp [TypeRef.core] at core
  | list element ih => rw [layType, ih core]; rfl
  | nullable inner ih => rw [layType, ih core]; rfl
  | union members => rfl

/-- The leaf may be missing, or is a value that would lead back to the owner of the field. -/
def BehindPointer (model : Model) (owner : String) (type : TypeRef) : Prop :=
  MayBeMissing type ∨ ∃ name, type = .named name ∧ model.LeadsTo name owner

theorem fieldType_eq_layType (unnamed : ∀ name, type ≠ .named name) :
    fieldType model symbols place type = layType model symbols place type := by
  cases laid : layType model symbols place type with
  | error cause => rw [fieldType, laid]; rfl
  | ok expr =>
      refine fieldType_eq_ok_iff.mpr ⟨expr, laid, ?_⟩
      split
      · exact absurd rfl (unnamed _)
      · rfl

theorem fieldType_slices (resolved : LeafFor model symbols type.core leaf) :
    ∃ mark held, HeldAs (BehindPointer model place.owner type) leaf mark held ∧
      fieldType model symbols place type = .ok (slices (type.wrappers.count .list) held) := by
  by_cases bare : ∃ name, type = .named name
  · obtain ⟨name, rfl⟩ := bare
    have present : ¬ MayBeMissing (.named name) :=
      fun missing => TypeRef.not_nullableLeaf rfl missing.2
    have back : BehindPointer model place.owner (.named name) ↔
        model.embeds name place.owner = true := by
      simp [BehindPointer, present, model.embeds_eq_true_iff]
    have typed : fieldType model symbols place (.named name) =
        .ok (if model.embeds name place.owner then .pointer leaf else leaf) :=
      fieldType_eq_ok_iff.mpr ⟨leaf, layType_leafFor resolved, rfl⟩
    rw [typed]
    cases embeds : model.embeds name place.owner with
    | true => exact ⟨"*", .pointer leaf, .pointer (back.mpr embeds), rfl⟩
    | false => exact ⟨"", leaf, .value (by simp [back, embeds]), rfl⟩
  · have unnamed : ∀ name, type ≠ .named name := fun name same => bare ⟨name, same⟩
    obtain ⟨mark, held, holds, laid⟩ := layType_slices resolved
    refine ⟨mark, held, holds.congr ?_, (fieldType_eq_layType unnamed).trans laid⟩
    simp [BehindPointer, unnamed]

/-- A field without unions is a slice for each list around a leaf, which is held through one
pointer at most, and never so if it takes any value.  A union cannot be said, wherever it
stands. -/
theorem fieldType_shape (model : Model) (symbols : Symbols) (place : FieldPlace)
    (type : TypeRef) :
    (∀ leaf, LeafFor model symbols type.core leaf →
      ∃ mark held, HeldAs (BehindPointer model place.owner type) leaf mark held ∧
        (type.core = .primitive .mixed → held = leaf) ∧
        fieldType model symbols place type = .ok (slices (type.wrappers.count .list) held) ∧
        (slices (type.wrappers.count .list) held).text =
          String.join (List.replicate (type.wrappers.count .list) "[]") ++ mark ++ leaf.text) ∧
    ((∃ members, (TypeRef.union members).Occurs type) →
      fieldType model symbols place type =
        .error (.unsupported place.owner (.unionField place.field))) := by
  constructor
  · intro leaf resolved
    obtain ⟨mark, held, holds, typed⟩ := fieldType_slices resolved
    refine ⟨mark, held, holds, ?_, typed, ?_⟩
    · intro mixed
      cases holds with
      | value _ => rfl
      | pointer needed =>
          rcases needed with missing | back
          · exact absurd mixed missing.1
          · obtain ⟨name, rfl, _⟩ := back
            cases mixed
    · rw [text_slices, holds.text_eq, String.append_assoc]
  · intro inside
    obtain ⟨members, occurs⟩ := inside
    have core := TypeRef.core_of_union occurs
    have unnamed : ∀ name, type ≠ .named name := by
      intro name same
      rw [same] at core
      simp [TypeRef.core] at core
    rw [fieldType_eq_layType unnamed, layType_union core]

end

/-- Legs of a journey between stops, each of which knows the leg that comes next. -/
def journey : Model where
  decls :=
    [ .record ⟨"stop", [⟨"name", .primitive .string, "name"⟩, ⟨"next", .named "leg", "next"⟩]⟩,
      .record ⟨"leg", [⟨"from", .named "stop", "from"⟩]⟩ ]
  valid := by decide

def journeySymbols : Symbols where
  language := .go
  bindings := [⟨.type "stop", "Stop"⟩, ⟨.type "leg", "Leg"⟩]

/-- Lists of stops, where both the lists and the stops in them may be missing. -/
def detours : TypeRef :=
  .nullable (.list (.nullable (.list (.nullable (.nullable (.named "stop"))))))

example : (fieldType journey journeySymbols ⟨"leg", "via"⟩ detours).map TypeExpr.text =
    .ok "[][]*Stop" := by
  decide +kernel

theorem journey_shape :
    (LeafFor journey journeySymbols detours.core (.declared "Stop") ∧
      ∃ mark held, HeldAs (BehindPointer journey "leg" detours) (.declared "Stop") mark held ∧
        (detours.core = .primitive .mixed → held = .declared "Stop") ∧
        fieldType journey journeySymbols ⟨"leg", "via"⟩ detours =
          .ok (slices (detours.wrappers.count .list) held) ∧
        (slices (detours.wrappers.count .list) held).text =
          String.join (List.replicate (detours.wrappers.count .list) "[]") ++ mark ++ "Stop") ∧
    ((∃ members, (TypeRef.union members).Occurs (.list (.union [detours]))) ∧
      fieldType journey journeySymbols ⟨"leg", "via"⟩ (.list (.union [detours])) =
        .error (.unsupported "leg" (.unionField "via"))) := by
  have resolved : LeafFor journey journeySymbols detours.core (.declared "Stop") :=
    .named (by decide) (by decide)
  have inside : ∃ members, (TypeRef.union members).Occurs (.list (.union [detours])) :=
    ⟨_, .list .here⟩
  have shape := fieldType_shape journey journeySymbols ⟨"leg", "via"⟩
  exact ⟨⟨resolved, (shape detours).1 _ resolved⟩, inside, (shape _).2 inside⟩

end Go

end WireSchema
