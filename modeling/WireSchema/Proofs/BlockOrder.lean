import WireSchema.Proofs.Generation
import WireSchema.Proofs.Go.Overlay
import WireSchema.Proofs.Symbol.Reordering
import WireSchema.Proofs.TypeScript.Layout

namespace WireSchema

/-! Files of a schema in another order.

What a type is printed as depends on the names that are declared, on what leads to what by
value, and on the identifiers of symbols.  A schema in another order agrees on the first two,
and once it agrees on the third as well, its file has the same blocks in its own order.
-/

namespace TypeScript

section

variable {left right : Model}

mutual
theorem collect_congr (alike : left.LooksLike right) (place : FieldPlace) (earlier : TypeExpr) :
    (type : TypeRef) → collect left place earlier type = collect right place earlier type
  | .primitive scalar => rfl
  | .named name => by rw [collect, collect, alike.declares_eq]
  | .list element => by rw [collect, collect, collect_congr alike place [] element]
  | .nullable inner => by rw [collect, collect, collect_congr alike place earlier inner]
  | .union members => by rw [collect, collect, collectAll_congr alike place earlier members]

theorem collectAll_congr (alike : left.LooksLike right) (place : FieldPlace)
    (earlier : TypeExpr) : (types : List TypeRef) →
      collectAll left place earlier types = collectAll right place earlier types
  | [] => rfl
  | type :: rest => by
      rw [collectAll, collectAll, collect_congr alike place earlier type]
      exact bind_congr fun members => collectAll_congr alike place members rest
end

variable (alike : left.LooksLike right)
include alike

theorem layProperties_congr (record : String) (fields : List Field) :
    layProperties left record fields = layProperties right record fields := by
  induction fields with
  | nil => rfl
  | cons field rest ih =>
      rw [layProperties, layProperties, fieldType, collect_congr alike, ih]
      rfl

theorem layDecl_congr (style : EnumStyle) (decl : TypeDecl) :
    layDecl left style decl = layDecl right style decl := by
  cases decl with
  | enum enum => rfl
  | record record =>
      rw [layDecl, layDecl, layRecord, layRecord, layProperties_congr alike]

end

/-- The text of one type. -/
def block (model : Model) (style : EnumStyle) (decl : TypeDecl) : Except RenderCause String :=
  (layDecl model style decl).map Declaration.text

end TypeScript

theorem Symbols.SameAs.agreeWhere {symbols others : Symbols} (same : symbols.SameAs others)
    (covered : SymbolKey → Prop) : symbols.AgreeWhere covered others :=
  fun key _ => same.get?_eq key

namespace Go

section

variable {left right : Model} {symbols others : Symbols} (alike : left.LooksLike right)
  (same : symbols.SameAs others)
include alike same

theorem fieldType_congr (place : FieldPlace) (type : TypeRef) :
    fieldType left symbols place type = fieldType right others place type :=
  fieldType_agree (same.agreeWhere fun _ => True) alike (fun _ _ => trivial) place type

theorem layDecl_congr (decl : TypeDecl) :
    layDecl left symbols decl = layDecl right others decl :=
  layDecl_agree (same.agreeWhere fun _ => True) alike (fun _ _ => trivial) fun _ _ => trivial

end

/-- The text of one type. -/
def block (model : Model) (symbols : Symbols) (decl : TypeDecl) : Except RenderCause String :=
  (layDecl model symbols decl).map Declaration.text

/-- What stands above the blocks of a file. -/
def head (options : GoOptions) : String := banner ++ "\n" ++ "package " ++ options.package ++ "\n"

end Go

/-- Below the head, the content has one block for each type, in order, with an empty line
above it. -/
def Lists (head : String) (block : TypeDecl → Except RenderCause String) (decls : List TypeDecl)
    (content : String) : Prop :=
  ∃ blocks, List.Forall₂ (fun decl text => block decl = .ok text) decls blocks ∧
    content = head ++ String.join (blocks.map fun text => "\n" ++ text)

/-- Both models are printed or neither is, and what is printed are the same blocks, in the
order of the model. -/
structure PrintedAlike (target : Target) (head : String)
    (block : TypeDecl → Except RenderCause String) (left right : Model) : Prop where
  together : (∃ generated, generate left target = .ok generated) ↔
    ∃ generated, generate right target = .ok generated
  blocks : ∀ model ∈ [left, right], ∀ generated, generate model target = .ok generated →
    Lists head block model.decls generated.content

theorem lists_mapM {Declaration : Type} {lay : TypeDecl → Except RenderCause Declaration}
    {text : Declaration → String} {decls : List TypeDecl} {declarations : List Declaration}
    (laid : decls.mapM lay = .ok declarations) (head : String) :
    Lists head (fun decl => (lay decl).map text) decls
      (head ++ String.join (declarations.map fun declaration => "\n" ++ text declaration)) := by
  refine ⟨declarations.map text, ?_, by rw [List.map_map]; rfl⟩
  rw [List.forall₂_map_right_iff]
  refine (mapM_eq_ok_iff.mp laid).imp fun decl declaration printed => ?_
  simp only [printed]
  rfl

theorem mapM_exists_iff {f : α → Except ε β} {inputs : List α} :
    (∃ outputs, inputs.mapM f = .ok outputs) ↔ ∀ input ∈ inputs, ∃ output, f input = .ok output := by
  simp only [mapM_eq_ok_iff, forall₂_exists_iff]

namespace TypeScript

variable {model : Model} {options : TypeScriptOptions}

theorem generate_exists_iff_blocks :
    (∃ generated, generate model (.typescript options) = .ok generated) ↔
      ∀ decl ∈ model.decls, ∃ declaration,
        layDecl model options.enumStyle decl = .ok declaration := by
  simp only [generate_typeScript_eq_ok_iff, existsAndEq, and_true, layFile, bind_eq_ok_iff,
    Except.ok.injEq, mapM_exists_iff]

theorem generate_lists {generated : GeneratedFile}
    (success : generate model (.typescript options) = .ok generated) :
    Lists banner (block model options.enumStyle) model.decls generated.content := by
  obtain ⟨file, laid, rfl⟩ := generate_typeScript_eq_ok_iff.mp success
  obtain ⟨declarations, laidAll, same⟩ := bind_eq_ok_iff.mp laid
  cases same
  exact lists_mapM laidAll banner

theorem printedAlike {left right : Model} (permuted : left.decls.Perm right.decls)
    (options : TypeScriptOptions) :
    PrintedAlike (.typescript options) banner (block left options.enumStyle) left right := by
  have alike := Model.LooksLike.of_perm permuted
  have laidAlike := layDecl_congr alike options.enumStyle
  have blockAlike : block left options.enumStyle = block right options.enumStyle := by
    funext decl
    rw [block, laidAlike, block]
  constructor
  · simp only [generate_exists_iff_blocks, laidAlike, permuted.mem_iff]
  · intro model member generated success
    simp only [List.mem_cons, List.not_mem_nil, or_false] at member
    rcases member with rfl | rfl
    · exact generate_lists success
    · exact blockAlike ▸ generate_lists success

end TypeScript

namespace Go

variable {model : Model} {symbols : Symbols} {options : GoOptions}

theorem layFile_eq_ok_iff_mapM {package : String} {file : File} :
    layFile model symbols package = .ok file ↔
      isIdentifier package = true ∧ ∃ declarations,
        model.decls.mapM (layDecl model symbols) = .ok declarations ∧
          ⟨package, declarations⟩ = file := by
  simp only [layFile, unless_eq_ok_iff, bind_eq_ok_iff, Except.ok.injEq, Bool.not_eq_true',
    Bool.not_eq_false]

theorem generate_exists_iff_blocks (resolved : resolve naming model = .ok symbols) :
    (∃ generated, generate model (.go options) = .ok generated) ↔
      isIdentifier options.package = true ∧
        ∀ decl ∈ model.decls, ∃ declaration, layDecl model symbols decl = .ok declaration := by
  simp only [generate_go_eq_ok_iff, resolved, Except.ok.injEq, existsAndEq, true_and, and_true,
    exists_and_left, layFile_eq_ok_iff_mapM, mapM_exists_iff]

theorem generate_lists {generated : GeneratedFile} (resolved : resolve naming model = .ok symbols)
    (success : generate model (.go options) = .ok generated) :
    Lists (head options) (block model symbols) model.decls generated.content := by
  obtain ⟨found, file, resolvedFound, laid, rfl⟩ := generate_go_eq_ok_iff.mp success
  cases resolved.symm.trans resolvedFound
  obtain ⟨_, declarations, laidAll, rfl⟩ := layFile_eq_ok_iff_mapM.mp laid
  exact lists_mapM laidAll (head options)

theorem printedAlike {left right : Model} {others : Symbols}
    (permuted : left.decls.Perm right.decls) (resolved : resolve naming left = .ok symbols)
    (resolvedOthers : resolve naming right = .ok others) (same : symbols.SameAs others)
    (options : GoOptions) :
    PrintedAlike (.go options) (head options) (block left symbols) left right := by
  have laidAlike := layDecl_congr (.of_perm permuted) same
  have blockAlike : block left symbols = block right others := by
    funext decl
    rw [block, laidAlike, block]
  constructor
  · simp only [generate_exists_iff_blocks resolved, generate_exists_iff_blocks resolvedOthers,
      laidAlike, permuted.mem_iff]
  · intro model member generated success
    simp only [List.mem_cons, List.not_mem_nil, or_false] at member
    rcases member with rfl | rfl
    · exact generate_lists resolved success
    · exact blockAlike ▸ generate_lists resolvedOthers success

end Go

theorem symbolsFor_go_eq_ok_iff {model : Model} {options : GoOptions} {symbols : Symbols} :
    symbolsFor model (.go options) = .ok (some symbols) ↔ resolve Go.naming model = .ok symbols := by
  simp only [symbolsFor, Target.scoping, bind_eq_ok_iff, Except.ok.injEq, Option.some.injEq,
    exists_eq_right]

/-- A schema in another order is a schema again.  Its TypeScript file has the same blocks, and
so does its Go file where the symbols keep their identifiers, down to the pointers of the
fields. -/
theorem generate_permuted (model : Model) {decls : List TypeDecl}
    (permuted : model.decls.Perm decls) :
    ∃ other, Model.ofDecls decls = .ok other ∧ other.decls = decls ∧
      (∀ options : TypeScriptOptions, PrintedAlike (.typescript options) TypeScript.banner
        (TypeScript.block model options.enumStyle) model other) ∧
      ∀ symbols others, symbolsFor model (.go {}) = .ok (some symbols) →
        symbolsFor other (.go {}) = .ok (some others) → symbols.SameAs others →
        (∀ options : GoOptions, PrintedAlike (.go options) (Go.head options)
          (Go.block model symbols) model other) ∧
        ∀ record ∈ model.records, ∀ field ∈ record.fields,
          Go.fieldType model symbols ⟨record.name, field.name⟩ field.type =
            Go.fieldType other others ⟨record.name, field.name⟩ field.type := by
  obtain ⟨other, built, rfl⟩ := model.ofDecls_perm permuted
  refine ⟨other, built, rfl, TypeScript.printedAlike permuted, ?_⟩
  intro symbols others resolved resolvedOthers same
  refine ⟨?_, fun record _ field _ => Go.fieldType_congr (.of_perm permuted) same _ _⟩
  exact Go.printedAlike permuted (symbolsFor_go_eq_ok_iff.mp resolved)
    (symbolsFor_go_eq_ok_iff.mp resolvedOthers) same

/-- Two records that hold each other by value, so that one order meets a circle first at one
of them and the other order at the other. -/
def linked : Model where
  decls :=
    [ .record ⟨"Node", [⟨"next", .named "Link", "next"⟩, ⟨"kind", .named "Kind", "kind"⟩]⟩,
      .record ⟨"Link", [⟨"target", .named "Node", "target"⟩]⟩,
      .enum ⟨"Kind", .string, [⟨"Leaf", .string "leaf"⟩]⟩ ]
  valid := by decide

def linkedBack : Model where
  decls := linked.decls.reverse
  valid := by decide

def linkedSymbols : Symbols where
  language := .go
  bindings :=
    [⟨.type "Node", "Node"⟩, ⟨.type "Link", "Link"⟩, ⟨.type "Kind", "Kind"⟩,
      ⟨.member "Kind" "Leaf", "Leaf"⟩]

def linkedBackSymbols : Symbols where
  language := .go
  bindings :=
    [⟨.type "Kind", "Kind"⟩, ⟨.type "Link", "Link"⟩, ⟨.type "Node", "Node"⟩,
      ⟨.member "Kind" "Leaf", "Leaf"⟩]

theorem linked_permuted :
    linked.decls.Perm linkedBack.decls ∧ Model.ofDecls linkedBack.decls = .ok linkedBack ∧
      linkedSymbols.SameAs linkedBackSymbols ∧
      PrintedAlike (.typescript {}) TypeScript.banner (TypeScript.block linked .enum)
        linked linkedBack ∧
      PrintedAlike (.go {}) (Go.head {}) (Go.block linked linkedSymbols) linked linkedBack ∧
      Go.fieldType linked linkedSymbols ⟨"Link", "target"⟩ (.named "Node") =
        Go.fieldType linkedBack linkedBackSymbols ⟨"Link", "target"⟩ (.named "Node") := by
  have permuted : linked.decls.Perm linkedBack.decls := (List.reverse_perm _).symm
  have resolved : symbolsFor linked (.go {}) = .ok (some linkedSymbols) := by decide +kernel
  have resolvedBack : symbolsFor linkedBack (.go {}) = .ok (some linkedBackSymbols) := by
    decide +kernel
  have same : linkedSymbols.SameAs linkedBackSymbols := .of_perm rfl (by decide) (by decide)
  obtain ⟨other, built, _, typeScript, go⟩ := generate_permuted linked permuted
  cases (Model.ofDecls_decls linkedBack).symm.trans built
  obtain ⟨printed, fields⟩ := go _ _ resolved resolvedBack same
  have target := fields ⟨"Link", [⟨"target", .named "Node", "target"⟩]⟩ (by decide)
    ⟨"target", .named "Node", "target"⟩ (by decide)
  exact ⟨permuted, Model.ofDecls_decls linkedBack, same, typeScript {}, printed {}, target⟩

end WireSchema
