namespace WireSchema

/-! The languages a model can be printed in, and the choices each of them leaves open. -/

inductive Language where
  | go
  | typescript
deriving DecidableEq

def Language.name : Language → String
  | .go => "go"
  | .typescript => "typescript"

/-- Where the cases of an enum live: beside all other names of the file, or inside their
enum. -/
inductive Scoping where
  | flat
  | namespaced
deriving DecidableEq

def Scoping.name : Scoping → String
  | .flat => "flat"
  | .namespaced => "namespaced"

/-- How TypeScript prints an enum: as an enum, or as the union of its values. -/
inductive EnumStyle where
  | enum
  | unionType
deriving DecidableEq

def EnumStyle.name : EnumStyle → String
  | .enum => "enum"
  | .unionType => "union_type"

structure GoOptions where
  package : String := "gen"
  fileName : String := "generated.go"
deriving DecidableEq

structure TypeScriptOptions where
  enumStyle : EnumStyle := .enum
  fileName : String := "generated.ts"
deriving DecidableEq

inductive Target where
  | go (options : GoOptions)
  | typescript (options : TypeScriptOptions)
deriving DecidableEq

namespace Target

def language : Target → Language
  | .go _ => .go
  | .typescript _ => .typescript

/-- Go puts the constants of an enum into the scope of the package. -/
def scoping : Target → Scoping
  | .go _ => .flat
  | .typescript _ => .namespaced

def fileName : Target → String
  | .go options => options.fileName
  | .typescript options => options.fileName

end Target

end WireSchema
