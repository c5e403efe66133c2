import Mathlib.Logic.Relation
import WireSchema.Proofs.Schema.Validity
import WireSchema.Schema.Embedding

namespace WireSchema

/-! The search for records inside records finds exactly the records inside.

The search forgets a declaration as soon as it has followed it.  Nothing is lost by that: a
path that comes back to the forgotten declaration can be cut short there, and what is left
of it starts at something the declaration holds, which the search has kept as pending.
-/

open Relation

/-- A record called `outer` has a field whose type is the bare name `inner`. -/
def HoldsByValue (decls : List TypeDecl) (outer inner : String) : Prop :=
  ∃ record, .record record ∈ decls ∧ record.name = outer ∧
    ∃ field ∈ record.fields, field.type = .named inner

theorem Field.embedded?_eq_some_iff {field : Field} {name : String} :
    field.embedded? = some name ↔ field.type = .named name := by
  unfold embedded?
  split
  · rename_i type
    rw [type, Option.some.injEq, TypeRef.named.injEq]
  · rename_i other
    simpa using other name

theorem TypeDecl.mem_embedded_iff {decl : TypeDecl} {name : String} :
    name ∈ decl.embedded ↔
      ∃ record, decl = .record record ∧ ∃ field ∈ record.fields, field.type = .named name := by
  cases decl with
  | enum decl => simp [embedded]
  | record decl => simp [embedded, Field.embedded?_eq_some_iff]

theorem holdsByValue_iff {decls : List TypeDecl} {outer inner : String} :
    HoldsByValue decls outer inner ↔
      ∃ decl ∈ decls, decl.name = outer ∧ inner ∈ decl.embedded := by
  constructor
  · rintro ⟨record, declared, named, holds⟩
    exact ⟨_, declared, named, TypeDecl.mem_embedded_iff.mpr ⟨record, rfl, holds⟩⟩
  · rintro ⟨decl, declared, named, inside⟩
    obtain ⟨record, rfl, holds⟩ := TypeDecl.mem_embedded_iff.mp inside
    exact ⟨record, declared, named, holds⟩

section

variable {decls : List TypeDecl} {decl : TypeDecl} {outer inner start goal : String}

theorem HoldsByValue.mono {fewer : List TypeDecl} (subset : fewer ⊆ decls)
    (holds : HoldsByValue fewer outer inner) : HoldsByValue decls outer inner := by
  obtain ⟨record, declared, rest⟩ := holds
  exact ⟨record, subset declared, rest⟩

/-- What a declared name holds by value, when no other declaration has that name. -/
theorem HoldsByValue.mem_embedded (distinct : (decls.map TypeDecl.name).Nodup)
    (declared : decl ∈ decls) (holds : HoldsByValue decls decl.name inner) :
    inner ∈ decl.embedded := by
  obtain ⟨other, otherDeclared, named, inside⟩ := holdsByValue_iff.mp holds
  have same := List.inj_on_of_nodup_map distinct otherDeclared declared named
  exact same ▸ inside

theorem HoldsByValue.erase (different : outer ≠ decl.name)
    (holds : HoldsByValue decls outer inner) :
    HoldsByValue (decls.erase decl) outer inner := by
  obtain ⟨other, declared, named, inside⟩ := holdsByValue_iff.mp holds
  have unlike : other ≠ decl := fun same => different (by rw [← named, same])
  exact holdsByValue_iff.mpr ⟨other, (List.mem_erase_of_ne unlike).mpr declared, named, inside⟩

/-- An erased declaration holds nothing any more. -/
theorem HoldsByValue.ne_of_erase (distinct : (decls.map TypeDecl.name).Nodup)
    (declared : decl ∈ decls) (holds : HoldsByValue (decls.erase decl) outer inner) :
    outer ≠ decl.name := by
  intro named
  obtain ⟨other, otherDeclared, otherNamed, _⟩ := holdsByValue_iff.mp holds
  have same := List.inj_on_of_nodup_map distinct (List.mem_of_mem_erase otherDeclared) declared
    (otherNamed.trans named)
  subst same
  exact List.Nodup.not_mem_erase (List.Nodup.of_map _ distinct) otherDeclared

/-- A path can do without the declaration, or is left with a path from something that the
declaration holds. -/
theorem path_erase (distinct : (decls.map TypeDecl.name).Nodup) (declared : decl ∈ decls)
    (path : ReflTransGen (HoldsByValue decls) start goal) :
    ReflTransGen (HoldsByValue (decls.erase decl)) start goal ∨
      ∃ inner ∈ decl.embedded, ReflTransGen (HoldsByValue (decls.erase decl)) inner goal := by
  induction path using ReflTransGen.head_induction_on with
  | refl => exact .inl .refl
  | @head outer inner step _ ih =>
      rcases ih with rest | later
      · by_cases named : outer = decl.name
        · subst named
          exact .inr ⟨inner, step.mem_embedded distinct declared, rest⟩
        · exact .inl (.head (step.erase named) rest)
      · exact .inr later

theorem embedsFrom_iff {remaining : List TypeDecl} {pending : List String}
    (distinct : (remaining.map TypeDecl.name).Nodup) :
    embedsFrom goal remaining pending = true ↔
      ∃ start ∈ pending, ReflTransGen (HoldsByValue remaining) start goal := by
  fun_induction embedsFrom goal remaining pending with
  | case1 remaining => simp
  | case2 remaining rest => simp [ReflTransGen.refl]
  | case3 remaining name rest different absent ih =>
      have stuck : ¬ ReflTransGen (HoldsByValue remaining) name goal := by
        intro path
        rcases path.cases_head with same | ⟨inner, holds, _⟩
        · exact different same
        · obtain ⟨decl, declared, named, _⟩ := holdsByValue_iff.mp holds
          exact List.find?_eq_none.mp absent decl declared (by simpa using named)
      rw [ih distinct]
      simp [stuck]
  | case4 remaining name rest different decl found ih =>
      have declared := List.mem_of_find?_eq_some found
      have named : decl.name = name := by simpa using List.find?_some found
      subst named
      have erased : ((remaining.erase decl).map TypeDecl.name).Nodup :=
        distinct.sublist (List.erase_sublist.map _)
      rw [ih erased]
      constructor
      · rintro ⟨start, member, path⟩
        have path := ReflTransGen.mono (fun _ _ => HoldsByValue.mono List.erase_subset) _ _ path
        rcases List.mem_append.mp member with inside | pending
        · have step := holdsByValue_iff.mpr ⟨decl, declared, rfl, inside⟩
          exact ⟨decl.name, List.mem_cons_self, .head step path⟩
        · exact ⟨start, List.mem_cons_of_mem _ pending, path⟩
      · rintro ⟨start, member, path⟩
        rcases path_erase distinct declared path with path | ⟨inner, inside, path⟩
        · rcases List.mem_cons.mp member with rfl | pending
          · rcases path.cases_head with same | ⟨_, holds, _⟩
            · exact absurd same different
            · exact absurd rfl (holds.ne_of_erase distinct declared)
          · exact ⟨start, List.mem_append_right _ pending, path⟩
        · exact ⟨inner, List.mem_append_left _ inside, path⟩

end

/-- Following bare names of fields leads from `start` to `goal`. -/
def Model.LeadsTo (model : Model) : String → String → Prop :=
  ReflTransGen (HoldsByValue model.decls)

theorem Model.embeds_eq_true_iff (model : Model) (start goal : String) :
    model.embeds start goal = true ↔ model.LeadsTo start goal := by
  unfold embeds
  rw [embedsFrom_iff model.distinctNames]
  simp [LeadsTo]

end WireSchema
