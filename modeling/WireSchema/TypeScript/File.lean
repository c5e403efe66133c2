import WireSchema.TypeScript.Declaration

namespace WireSchema.TypeScript

/-! The TypeScript file of a model.  Enums are scopes of their own, so every name is
printed as the schema spells it. -/

def banner : String :=
  "// THIS FILE WAS AUTOGENERATED BY dtoforge.\n" ++
  "// PLEASE DO NOT EDIT IT!\n"

structure File where
  declarations : List Declaration

def File.text (file : File) : String :=
  banner ++ String.join (file.declarations.map fun declaration => "\n" ++ declaration.text)

def layFile (model : Model) (style : EnumStyle) : Except RenderCause File := do
  let declarations ← model.decls.mapM (layDecl model style)
  .ok ⟨declarations⟩

end WireSchema.TypeScript
