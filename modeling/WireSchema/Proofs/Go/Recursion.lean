import WireSchema.Proofs.Go.Placement
import WireSchema.Proofs.Schema.Containment

namespace WireSchema.Go

/-! No struct of a generated Go file contains itself.

Each field is decided on its own, by asking whether the schema leads from the type of the
field back to its owner.  A circle of values among the structs would be a circle in the
schema, so the question about any field on it would have been answered with yes.
-/

open Relation

/-- A field of the struct `outer` has just the identifier of the struct `inner` for a
type. -/
def HoldsInline (blocks : List Block) (outer inner : String) : Prop :=
  ∃ holder ∈ blocks, holder.isStruct = true ∧ holder.identifier = outer ∧
    (∃ row ∈ holder.rows, row.type = inner) ∧
    ∃ held ∈ blocks, held.isStruct = true ∧ held.identifier = inner

/-- A field of a bare named type is a pointer exactly if its type leads back to `owner`, and
holds the value itself exactly if not. -/
def PointsBack (model : Model) (blocks : List Block) (owner : String) (field : Field)
    (row : Row) : Prop :=
  ∀ name, field.type = .named name → ∃ target, blockFor? model blocks name = some target ∧
    (row.type = "*" ++ target.identifier ↔ model.LeadsTo name owner) ∧
    (row.type = target.identifier ↔ ¬ model.LeadsTo name owner)

structure BreaksCircles (model : Model) (blocks : List Block) : Prop where
  acyclic : ∀ identifier, ¬ TransGen (HoldsInline blocks) identifier identifier
  pointers : List.Forall₂ (fun decl block => ∀ record, decl = .record record →
    List.Forall₂ (PointsBack model blocks record.name) record.fields (Block.rows block))
      model.decls blocks

theorem TypeExpr.eq_declared_of_text {expr : TypeExpr}
    (accepted : isPackageIdentifier expr.text = true) : expr = .declared expr.text := by
  have continues := Text.continues_of_mem_identifier
    (textIdentifier (isIdentifier_of_package accepted))
  cases expr with
  | builtin type => cases type <;> exact absurd accepted (by decide)
  | declared identifier => rfl
  | slice element => exact absurd (continues '[' (by simp [text])) (by decide)
  | pointer target => exact absurd (continues '*' (by simp [text])) (by decide)

theorem pointer_ne (identifier : String) : "*" ++ identifier ≠ identifier := by simp

theorem pointsBack {model : Model} {symbols : Symbols} {declarations : List Declaration}
    (placed : Placed model symbols declarations) {record : String} {field : Field}
    {laid : StructField} (laidField : LaidField model symbols record field laid) :
    PointsBack model (declarations.map Declaration.block) record field (.ofField laid) := by
  intro name named
  have typed := laidField.typed
  rw [named] at typed
  obtain ⟨identifier, declares, found, expr⟩ := fieldType_named typed
  obtain ⟨declaration, _, block, rfl⟩ := placed.blockFor?_identifier declares found
  refine ⟨declaration.block, block, ?_⟩
  rw [← model.embeds_eq_true_iff, Row.ofField, expr]
  cases embeds : model.embeds name record with
  | true => simp [TypeExpr.text, Declaration.block]
  | false =>
      simpa [embeds, TypeExpr.text, Declaration.block]
        using (pointer_ne declaration.identifier).symm

namespace Placed

variable {model : Model} {symbols : Symbols} {declarations : List Declaration}

/-- What stands behind a field that holds a struct by value. -/
theorem holdsInline (placed : Placed model symbols declarations) {outer inner : String}
    (holds : HoldsInline (declarations.map Declaration.block) outer inner) :
    ∃ outerName innerName, symbols.type? outerName = some outer ∧
      symbols.type? innerName = some inner ∧
      HoldsByValue model.decls outerName innerName ∧ ¬ model.LeadsTo innerName outerName := by
  obtain ⟨holder, holderIn, struct, rfl, ⟨row, rowIn, typed⟩, held, heldIn, _, rfl⟩ := holds
  obtain ⟨declaration, member, rfl⟩ := List.mem_map.mp holderIn
  obtain ⟨target, targetIn, rfl⟩ := List.mem_map.mp heldIn
  obtain ⟨_, _, laidTarget⟩ := forall₂_exists_right placed.laid targetIn
  obtain ⟨decl, declared, laid⟩ := forall₂_exists_right placed.laid member
  cases laid with
  | enum _ _ _ => simp [Declaration.isStruct_enum] at struct
  | @struct record identifier fields symbol _ related _ =>
      obtain ⟨laidField, inside, rfl⟩ := List.mem_map.mp rowIn
      obtain ⟨field, fieldIn, laid⟩ := forall₂_exists_right related inside
      have accepted := laidTarget.isPackageIdentifier
      have bare : laidField.type = .declared target.identifier := by
        have text : laidField.type.text = target.identifier := typed
        rw [← text] at accepted ⊢
        exact TypeExpr.eq_declared_of_text accepted
      obtain ⟨name, named, found, apart⟩ := fieldType_eq_declared (bare ▸ laid.typed)
      refine ⟨record.name, name, symbol, found, ⟨record, declared, rfl, field, fieldIn, named⟩, ?_⟩
      rw [← model.embeds_eq_true_iff, apart]
      exact Bool.false_ne_true

theorem leadsTo (placed : Placed model symbols declarations) {start goal : String}
    (path : ReflTransGen (HoldsInline (declarations.map Declaration.block)) start goal)
    {startName goalName : String} (startFound : symbols.type? startName = some start)
    (goalFound : symbols.type? goalName = some goal) : model.LeadsTo startName goalName := by
  induction path using ReflTransGen.head_induction_on generalizing startName with
  | refl =>
      rw [placed.name_injective startFound goalFound]
      exact .refl
  | head step _ ih =>
      obtain ⟨outerName, innerName, outerFound, innerFound, holds, _⟩ := placed.holdsInline step
      rw [placed.name_injective startFound outerFound]
      exact .head holds (ih innerFound)

theorem acyclic (placed : Placed model symbols declarations) (identifier : String) :
    ¬ TransGen (HoldsInline (declarations.map Declaration.block)) identifier identifier := by
  intro cycle
  obtain ⟨next, step, path⟩ := TransGen.head'_iff.mp cycle
  obtain ⟨name, nextName, found, nextFound, _, apart⟩ := placed.holdsInline step
  exact apart (placed.leadsTo path nextFound found)

theorem pointers (placed : Placed model symbols declarations) :
    List.Forall₂ (fun decl block => ∀ record, decl = .record record →
      List.Forall₂ (PointsBack model (declarations.map Declaration.block) record.name)
        record.fields (Block.rows block))
      model.decls (declarations.map Declaration.block) := by
  rw [List.forall₂_map_right_iff]
  refine placed.laid.imp fun decl declaration laid record same => ?_
  subst same
  cases laid with
  | struct _ _ related _ =>
      rw [Declaration.block, Declaration.rows, List.forall₂_map_right_iff]
      exact related.imp fun _ _ laidField => pointsBack placed laidField

end Placed

/-- Structs hold each other by value without ever coming back to where they started, and
only pointers that this takes are there. -/
theorem generate_breaksCircles {model : Model} {options : GoOptions} {generated : GeneratedFile}
    (success : generate model (.go options) = .ok generated) :
    BreaksCircles model (outline generated.content) := by
  obtain ⟨symbols, declarations, placed, read⟩ := generate_placed success
  rw [read]
  exact ⟨placed.acyclic, placed.pointers⟩

/-- A record that goes on in one of its kind, and one that starts with it. -/
def chain : Model where
  decls :=
    [ .record ⟨"chain", [⟨"first", .named "link", "first"⟩]⟩,
      .record ⟨"link", [⟨"next", .named "link", "next"⟩]⟩ ]
  valid := by decide

def chainSymbols : Symbols where
  language := .go
  bindings := [⟨.type "chain", "Chain"⟩, ⟨.type "link", "Link"⟩]

def chainFile : File where
  package := "gen"
  declarations :=
    [ .struct "Chain" [⟨"First", .declared "Link", "first"⟩],
      .struct "Link" [⟨"Next", .pointer (.declared "Link"), "next"⟩] ]

theorem generate_chain :
    generate chain (.go {}) = .ok ⟨.go {}, "generated.go", chainFile.text⟩ := by
  have resolved : resolve naming chain = .ok chainSymbols := by decide +kernel
  have first : fieldType chain chainSymbols ⟨"chain", "first"⟩ (.named "link") =
      .ok (.declared "Link") := by
    have apart : chain.embeds "link" "chain" = false := by cbv
    exact fieldType_eq_ok_iff.mpr ⟨.declared "Link", by decide, by simp [apart]⟩
  have next : fieldType chain chainSymbols ⟨"link", "next"⟩ (.named "link") =
      .ok (.pointer (.declared "Link")) := by
    have back := (chain.embeds_eq_true_iff "link" "link").mpr .refl
    exact fieldType_eq_ok_iff.mpr ⟨.declared "Link", by decide, by simp [back]⟩
  have firstKey : taggable "chain" "first" = .ok "first" := by decide
  have nextKey : taggable "link" "next" = .ok "next" := by decide
  have laid : layFile chain chainSymbols "gen" = .ok chainFile := by
    refine layFile_eq_ok_iff.mpr ⟨rfl, by decide +kernel, .cons ?_ (.cons ?_ .nil)⟩
    · refine .struct (by decide) (by decide) (.cons ?_ .nil) (by decide)
      exact ⟨by decide, by decide, first, rfl, (taggable_eq_ok_iff.mp firstKey).2⟩
    · refine .struct (by decide) (by decide) (.cons ?_ .nil) (by decide)
      exact ⟨by decide, by decide, next, rfl, (taggable_eq_ok_iff.mp nextKey).2⟩
  exact generate_go_eq_ok_iff.mpr ⟨chainSymbols, chainFile, resolved, laid, rfl⟩

theorem chain_breaksCircles :
    ∃ generated, generate chain (.go {}) = .ok generated ∧
      BreaksCircles chain (outline generated.content) :=
  ⟨_, generate_chain, generate_breaksCircles generate_chain⟩

end WireSchema.Go
