import WireSchema.Target

namespace WireSchema

/-! Symbols of a schema and the identifiers they have in a printed file. -/

/-- Something that a file declares under an identifier of its own. -/
inductive SymbolKey where
  | type (name : String)
  | member (owner case : String)
deriving DecidableEq

/-- A symbol as a diagnostic names it. -/
def SymbolKey.display : SymbolKey → String
  | .type name => s!"type '{name}'"
  | .member owner case => s!"'{owner}.{case}'"

structure Binding where
  key : SymbolKey
  identifier : String
deriving DecidableEq

def holder? (bindings : List Binding) (identifier : String) : Option SymbolKey :=
  (bindings.find? (·.identifier == identifier)).map Binding.key

/-- The identifiers chosen for a language. -/
structure Symbols where
  language : Language
  bindings : List Binding
deriving DecidableEq

namespace Symbols

def get? (symbols : Symbols) (key : SymbolKey) : Option String :=
  (symbols.bindings.find? (·.key == key)).map Binding.identifier

def type? (symbols : Symbols) (name : String) : Option String :=
  symbols.get? (.type name)

def member? (symbols : Symbols) (owner case : String) : Option String :=
  symbols.get? (.member owner case)

def size (symbols : Symbols) : Nat := symbols.bindings.length

def isEmpty (symbols : Symbols) : Bool := symbols.bindings.isEmpty

end Symbols

end WireSchema
