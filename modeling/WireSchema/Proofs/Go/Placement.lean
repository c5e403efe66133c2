import WireSchema.Proofs.Generation
import WireSchema.Proofs.Go.Outline
import WireSchema.Proofs.Symbol.Injectivity

namespace WireSchema.Go

/-! Which block of a generated file stands for which type of the schema.

Blocks keep the order of the schema, so a type and its block are found at the same
position.
-/

/-- The block at the position of the type called `name`. -/
def blockFor? (model : Model) (blocks : List Block) (name : String) : Option Block :=
  model.index? name >>= fun index => blocks[index]?

section

variable {model : Model} {symbols : Symbols} {decl : TypeDecl} {declaration : Declaration}

theorem Laid.symbol (laid : Laid model symbols decl declaration) :
    symbols.type? decl.name = some declaration.identifier := by
  cases laid with
  | enum symbol _ _ => exact symbol
  | struct symbol _ _ _ => exact symbol

theorem Laid.isPackageIdentifier (laid : Laid model symbols decl declaration) :
    isPackageIdentifier declaration.identifier = true := by
  cases laid with
  | enum _ accepted _ => exact accepted
  | struct _ accepted _ _ => exact accepted

end

/-- A file whose declarations were laid out for the types of a model, in their order. -/
structure Placed (model : Model) (symbols : Symbols) (declarations : List Declaration) :
    Prop where
  resolved : resolve naming model = .ok symbols
  laid : List.Forall₂ (Laid model symbols) model.decls declarations

theorem generate_placed {model : Model} {options : GoOptions} {generated : GeneratedFile}
    (success : generate model (.go options) = .ok generated) :
    ∃ symbols declarations, Placed model symbols declarations ∧
      outline generated.content = declarations.map Declaration.block := by
  obtain ⟨symbols, file, resolved, laid, rfl⟩ := generate_go_eq_ok_iff.mp success
  obtain ⟨_, _, related⟩ := layFile_eq_ok_iff.mp laid
  exact ⟨symbols, file.declarations, ⟨resolved, related⟩, outline_text (layFile_printable laid)⟩

namespace Placed

variable {model : Model} {symbols : Symbols} {declarations : List Declaration}

theorem symbol_injective (placed : Placed model symbols declarations) {left right : SymbolKey}
    {identifier : String} (leftFound : symbols.get? left = some identifier)
    (rightFound : symbols.get? right = some identifier) : left = right :=
  Symbols.get?_injective (resolve_distinct placed.resolved) leftFound rightFound

theorem name_injective (placed : Placed model symbols declarations) {left right : String}
    {identifier : String} (leftFound : symbols.type? left = some identifier)
    (rightFound : symbols.type? right = some identifier) : left = right :=
  SymbolKey.type.inj (placed.symbol_injective leftFound rightFound)

theorem blockFor?_name (placed : Placed model symbols declarations) {decl : TypeDecl}
    (declared : decl ∈ model.decls) :
    ∃ declaration, blockFor? model (declarations.map Declaration.block) decl.name =
      some declaration.block ∧ declaration ∈ declarations ∧
        Laid model symbols decl declaration := by
  obtain ⟨index, indexed, there⟩ := Option.bind_eq_some_iff.mp (model.find?_name declared)
  obtain ⟨declaration, found, laid⟩ := forall₂_getElem? placed.laid there
  refine ⟨declaration, ?_, List.mem_of_getElem? found, laid⟩
  rw [blockFor?, indexed]
  simp [found]

theorem blockFor?_identifier (placed : Placed model symbols declarations)
    {name identifier : String} (declares : model.declares name = true)
    (found : symbols.type? name = some identifier) :
    ∃ declaration ∈ declarations,
      blockFor? model (declarations.map Declaration.block) name = some declaration.block ∧
        declaration.identifier = identifier := by
  obtain ⟨decl, declared, rfl⟩ := (model.declares_iff name).mp declares
  obtain ⟨declaration, block, member, laid⟩ := placed.blockFor?_name declared
  exact ⟨declaration, member, block, Option.some.inj (laid.symbol.symm.trans found)⟩

end Placed

end WireSchema.Go
