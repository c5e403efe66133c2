import WireSchema.Proofs.Schema.Containment
import WireSchema.Proofs.Schema.WellFormed

namespace WireSchema

/-! The order of a schema decides nothing about its types.

Validation walks the types in order and stops at the first fault, and the search for values
inside values follows them in order.  What either finds out is about the types as a set.
-/

section

variable {left right : List TypeDecl}

theorem RecordType.WellFormed.mono {record : RecordType} (subset : left ⊆ right)
    (wellFormed : record.WellFormed left) : record.WellFormed right where
  named := wellFormed.named
  distinctNames := wellFormed.distinctNames
  keyed := wellFormed.keyed
  distinctKeys := wellFormed.distinctKeys
  declared field member name occurs := by
    obtain ⟨decl, declared, called⟩ := wellFormed.declared field member name occurs
    exact ⟨decl, subset declared, called⟩
  wideUnions := wellFormed.wideUnions

theorem WellFormed.perm (permuted : left.Perm right) (wellFormed : WellFormed left) :
    WellFormed right where
  named decl member := wellFormed.named decl (permuted.mem_iff.mpr member)
  distinctNames := (permuted.map _).nodup_iff.mp wellFormed.distinctNames
  enums enum member := wellFormed.enums enum (permuted.mem_iff.mpr member)
  records record member :=
    (wellFormed.records record (permuted.mem_iff.mpr member)).mono permuted.subset

end

namespace Model

theorem ofDecls_perm (model : Model) {decls : List TypeDecl} (permuted : model.decls.Perm decls) :
    ∃ other, ofDecls decls = .ok other ∧ other.decls = decls := by
  have wellFormed := ((validate_accepts_iff model.decls).mp model.valid).perm permuted
  have valid := (validate_accepts_iff decls).mpr wellFormed
  exact ⟨⟨decls, valid⟩, ofDecls_eq_ok_iff.mpr rfl, rfl⟩

/-- Everything that printing one type asks about the others. -/
structure LooksLike (left right : Model) : Prop where
  declares_eq : ∀ name, left.declares name = right.declares name
  embeds_eq : ∀ start goal, left.embeds start goal = right.embeds start goal

variable {left right : Model}

theorem LeadsTo.mono {start goal : String} (subset : left.decls ⊆ right.decls)
    (leads : left.LeadsTo start goal) : right.LeadsTo start goal :=
  Relation.ReflTransGen.mono (fun _ _ => HoldsByValue.mono subset) _ _ leads

theorem LooksLike.of_perm (permuted : left.decls.Perm right.decls) : left.LooksLike right where
  declares_eq name := by
    rw [Bool.eq_iff_iff, declares_iff, declares_iff]
    simp only [permuted.mem_iff]
  embeds_eq start goal := by
    rw [Bool.eq_iff_iff, embeds_eq_true_iff, embeds_eq_true_iff]
    exact ⟨LeadsTo.mono permuted.subset, LeadsTo.mono permuted.symm.subset⟩

end Model

end WireSchema
