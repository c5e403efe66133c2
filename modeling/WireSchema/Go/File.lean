import WireSchema.Go.Declaration

namespace WireSchema.Go

/-! The Go file of a model. -/

/-- Go names types after the schema, with a capital so that they are exported, and constants
as the schema spells them. -/
def naming : Naming where
  language := .go
  typeName := Text.capitalize
  memberName _ case := case.name

def banner : String :=
  "// Code generated by dtoforge. DO NOT EDIT.\n" ++
  "// Code generated by dtoforge. DO NOT EDIT.\n" ++
  "// Code generated by dtoforge. DO NOT EDIT.\n"

structure File where
  package : String
  declarations : List Declaration
deriving DecidableEq

def File.text (file : File) : String :=
  banner ++ "\n" ++ "package " ++ file.package ++ "\n" ++
    String.join (file.declarations.map fun declaration => "\n" ++ declaration.text)

def layFile (model : Model) (symbols : Symbols) (package : String) :
    Except RenderCause File := do
  if !isIdentifier package then .error (.invalidIdentifier "<package>" package)
  else
    let declarations ← model.decls.mapM (layDecl model symbols)
    .ok ⟨package, declarations⟩

end WireSchema.Go
