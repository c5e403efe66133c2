import WireSchema.Proofs.Go.Placement

namespace WireSchema.Go

/-! Every name in a generated Go file has one meaning.

Types and constants share the scope of the package.  The resolution keeps their identifiers
apart, and none of them hides a name that Go declares itself, so a builtin type is never
taken for a declared one.  What a field refers to is found again among the type lines.
-/

namespace Block

def declared (block : Block) : List String :=
  block.identifier :: if block.isStruct then [] else block.rows.map Row.identifier

end Block

/-- What a name stands for, in a file with these blocks, at the end of the Go form of a
type. -/
inductive RefersTo (model : Model) (blocks : List Block) (type : TypeRef) (leaf : String) :
    Prop where
  | builtin : type.names = [] → leaf ∈ ["string", "int", "float64", "bool", "any"] →
      leaf ∉ blocks.flatMap Block.declared → RefersTo model blocks type leaf
  | declared {name : String} {target : Block} : type.names = [name] →
      blockFor? model blocks name = some target → leaf = target.identifier →
      (blocks.map Block.identifier).count leaf = 1 → RefersTo model blocks type leaf

/-- The text is made of marks for slices and pointers, and of a name in scope. -/
def TypeInScope (model : Model) (blocks : List Block) (type : TypeRef) (text : String) : Prop :=
  ∃ marks leaf, (∀ mark ∈ marks, mark = "[]" ∨ mark = "*") ∧
    text = String.join marks ++ leaf ∧ RefersTo model blocks type leaf

/-- The block of a type, in a file with these blocks: one row for each case or field, in
order, and every name in it as it should be. -/
inductive Prints (model : Model) (symbols : Symbols) (blocks : List Block) :
    TypeDecl → Block → Prop where
  | enum {enum : EnumType} {block : Block} : block.isStruct = false →
      symbols.type? enum.name = some block.identifier →
      List.Forall₂ (fun case row => symbols.member? enum.name case.name = some row.identifier ∧
          row.type = block.identifier)
        enum.cases (Block.rows block) →
      Prints model symbols blocks (.enum enum) block
  | struct {record : RecordType} {block : Block} : block.isStruct = true →
      symbols.type? record.name = some block.identifier →
      List.Forall₂ (fun field row => row.identifier = Text.capitalize field.name ∧
          isIdentifier row.identifier = true ∧ TypeInScope model blocks field.type row.type)
        record.fields (Block.rows block) →
      (block.rows.map Row.identifier).Nodup →
      Prints model symbols blocks (.record record) block

structure WellScoped (model : Model) (symbols : Symbols) (blocks : List Block) : Prop where
  printed : List.Forall₂ (Prints model symbols blocks) model.decls blocks
  distinct : (blocks.flatMap Block.declared).Nodup
  declarable : ∀ identifier ∈ blocks.flatMap Block.declared,
    isPackageIdentifier identifier = true

theorem Laid.declares {model : Model} {symbols : Symbols} {decl : TypeDecl}
    {declaration : Declaration} (laid : Laid model symbols decl declaration) :
    List.Forall₂ (Declares symbols) decl.symbolKeys declaration.block.declared := by
  cases laid with
  | @enum enum identifier constants symbol accepted related =>
      rw [Block.declared, Declaration.isStruct_enum]
      refine .cons ⟨symbol, accepted⟩ ?_
      rw [Declaration.block, Declaration.rows, if_neg (by simp), List.map_map, EnumType.caseKeys,
        List.forall₂_map_left_iff, List.forall₂_map_right_iff]
      exact related.imp fun case constant laidConstant =>
        ⟨laidConstant.symbol, laidConstant.declarable⟩
  | @struct record identifier fields symbol accepted _ _ =>
      rw [Block.declared, Declaration.isStruct_struct]
      exact .cons ⟨symbol, accepted⟩ .nil

/-- Blocks declare the symbols of the types that they were laid out for, and no others. -/
theorem declares_of_laid {model : Model} {symbols : Symbols} {decls : List TypeDecl}
    {declarations : List Declaration}
    (laid : List.Forall₂ (Laid model symbols) decls declarations) :
    List.Forall₂ (Declares symbols) (decls.flatMap TypeDecl.symbolKeys)
      ((declarations.map Declaration.block).flatMap Block.declared) := by
  rw [List.flatMap_map]
  exact List.rel_flatMap laid fun _ _ laidOne => laidOne.declares

namespace Placed

variable {model : Model} {symbols : Symbols} {declarations : List Declaration}

theorem declares (placed : Placed model symbols declarations) :
    List.Forall₂ (Declares symbols) (model.decls.flatMap TypeDecl.symbolKeys)
      ((declarations.map Declaration.block).flatMap Block.declared) :=
  declares_of_laid placed.laid

theorem declarable (placed : Placed model symbols declarations) {identifier : String}
    (member : identifier ∈ (declarations.map Declaration.block).flatMap Block.declared) :
    isPackageIdentifier identifier = true := by
  obtain ⟨_, _, declares⟩ := forall₂_exists_right placed.declares member
  exact declares.2

theorem distinct_declared (placed : Placed model symbols declarations) :
    ((declarations.map Declaration.block).flatMap Block.declared).Nodup :=
  nodup_of_forall₂ placed.declares (TypeDecl.nodup_flatMap_symbolKeys model) fun _ _ _ left right =>
    placed.symbol_injective left.1 right.1

theorem distinct_identifiers (placed : Placed model symbols declarations) :
    ((declarations.map Declaration.block).map Block.identifier).Nodup := by
  have symbols : List.Forall₂ (fun key identifier => symbols.get? key = some identifier)
      (model.decls.map TypeDecl.key)
      ((declarations.map Declaration.block).map Block.identifier) := by
    rw [List.map_map, List.forall₂_map_left_iff, List.forall₂_map_right_iff]
    exact placed.laid.imp fun _ _ laid => laid.symbol
  exact nodup_of_forall₂ symbols (TypeDecl.nodup_keys model) fun _ _ _ left right =>
    placed.symbol_injective left right

theorem refersTo (placed : Placed model symbols declarations) {type : TypeRef} {leaf : Leaf}
    (leafOf : LeafOf model symbols type.names leaf) :
    RefersTo model (declarations.map Declaration.block) type leaf.text := by
  generalize named : type.names = names at leafOf
  cases leafOf with
  | builtin builtin =>
      refine .builtin named (by cases builtin <;> simp [Leaf.text, Builtin.text]) fun hidden => ?_
      have accepted := placed.declarable hidden
      cases builtin <;> exact absurd accepted (by decide)
  | @declared name identifier declares found =>
      obtain ⟨declaration, member, block, same⟩ := placed.blockFor?_identifier declares found
      refine .declared named block same.symm ?_
      refine List.count_eq_one_of_mem placed.distinct_identifiers ?_
      exact List.mem_map.mpr ⟨declaration.block, List.mem_map_of_mem member, same⟩

theorem typeInScope (placed : Placed model symbols declarations) {place : FieldPlace}
    {type : TypeRef} {expr : TypeExpr}
    (typed : fieldType model symbols place type = .ok expr) :
    TypeInScope model (declarations.map Declaration.block) type expr.text :=
  ⟨expr.marks, expr.leaf.text, fun _ member => TypeExpr.eq_slice_or_pointer member,
    expr.text_eq, placed.refersTo (fieldType_leaf typed)⟩

theorem prints (placed : Placed model symbols declarations) {decl : TypeDecl}
    {declaration : Declaration} (laid : Laid model symbols decl declaration) :
    Prints model symbols (declarations.map Declaration.block) decl declaration.block := by
  cases laid with
  | @enum enum identifier constants symbol _ related =>
      refine .enum (Declaration.isStruct_enum _ _ _) symbol ?_
      rw [Declaration.block, Declaration.rows, List.forall₂_map_right_iff]
      exact related.imp fun _ _ laidConstant => ⟨laidConstant.symbol, rfl⟩
  | @struct record identifier fields symbol _ related distinct =>
      have rows : exported record.fields = (fields.map Row.ofField).map Row.identifier := by
        rw [List.map_map, exported, ← List.forall₂_eq_eq_eq, List.forall₂_map_left_iff,
          List.forall₂_map_right_iff]
        exact related.imp fun _ _ laidField => laidField.identifier_eq.symm
      refine .struct (Declaration.isStruct_struct _ _) symbol ?_ ?_
      · rw [Declaration.block, Declaration.rows, List.forall₂_map_right_iff]
        exact related.imp fun _ _ laidField =>
          ⟨laidField.identifier_eq, laidField.isIdentifier, placed.typeInScope laidField.typed⟩
      · rw [Declaration.block, Declaration.rows, ← rows]
        exact distinct

theorem wellScoped (placed : Placed model symbols declarations) :
    WellScoped model symbols (declarations.map Declaration.block) where
  printed := List.forall₂_map_right_iff.mpr (placed.laid.imp fun _ _ => placed.prints)
  distinct := placed.distinct_declared
  declarable _ := placed.declarable

end Placed

/-- A Go file that is generated declares every name once, and refers only to what it
declares or to what Go declares. -/
theorem generate_wellScoped {model : Model} {options : GoOptions} {generated : GeneratedFile}
    (success : generate model (.go options) = .ok generated) :
    ∃ symbols, resolve naming model = .ok symbols ∧
      WellScoped model symbols (outline generated.content) := by
  obtain ⟨symbols, declarations, placed, read⟩ := generate_placed success
  rw [read]
  exact ⟨symbols, placed.resolved, placed.wellScoped⟩

/-- A case is called like a type, and two records refer to each other. -/
def team : Model where
  decls :=
    [ .enum ⟨"role", .string, [⟨"Guest", .string "guest"⟩, ⟨"Team", .string "team"⟩]⟩,
      .record ⟨"member",
        [ ⟨"name", .primitive .string, "name"⟩, ⟨"roles", .list (.named "role"), "roles"⟩,
          ⟨"team", .nullable (.named "team"), "team"⟩ ]⟩,
      .record ⟨"team", [⟨"members", .list (.nullable (.named "member")), "members"⟩]⟩ ]
  valid := by decide

def teamSymbols : Symbols where
  language := .go
  bindings :=
    [ ⟨.type "role", "Role"⟩, ⟨.type "member", "Member"⟩, ⟨.type "team", "Team"⟩,
      ⟨.member "role" "Guest", "Guest"⟩, ⟨.member "role" "Team", "TeamRole"⟩ ]

def teamFile : File where
  package := "gen"
  declarations :=
    [ .enum "Role" .string [⟨"Guest", .string "guest"⟩, ⟨"TeamRole", .string "team"⟩],
      .struct "Member"
        [ ⟨"Name", .builtin .string, "name"⟩, ⟨"Roles", .slice (.declared "Role"), "roles"⟩,
          ⟨"Team", .pointer (.declared "Team"), "team"⟩ ],
      .struct "Team" [⟨"Members", .slice (.pointer (.declared "Member")), "members"⟩] ]

theorem generate_team :
    generate team (.go {}) = .ok ⟨.go {}, "generated.go", teamFile.text⟩ := by
  have resolved : resolve naming team = .ok teamSymbols := by decide +kernel
  have laid : layFile team teamSymbols "gen" = .ok teamFile := by decide +kernel
  exact generate_go_eq_ok_iff.mpr ⟨teamSymbols, teamFile, resolved, laid, rfl⟩

theorem team_wellScoped :
    ∃ generated, generate team (.go {}) = .ok generated ∧
      ∃ symbols, resolve naming team = .ok symbols ∧
        WellScoped team symbols (outline generated.content) :=
  ⟨_, generate_team, generate_wellScoped generate_team⟩

end WireSchema.Go
