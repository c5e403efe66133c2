import WireSchema.Schema.Model
import WireSchema.Symbol.Basic

namespace WireSchema

/-! Distinct identifiers for everything that a file with one flat scope declares.

Types take their identifiers first, in the order of the schema.  Then every enum case, in
the same order, takes its natural identifier if that is still free, and otherwise the
natural one followed by the identifier of its enum.  A case for which both are taken makes
the resolution fail; nothing is ever renamed twice or guessed.
-/

/-- The identifiers that a language would give if there were no clashes. -/
structure Naming where
  language : Language
  typeName : String → String
  memberName : EnumType → EnumCase → String

inductive Clash where
  | types (owner holder : String) (identifier : String)
  | member (owner case natural candidate : String) (holder : SymbolKey)
deriving DecidableEq

structure ResolutionFault where
  language : Language
  clash : Clash
deriving DecidableEq

def ResolutionFault.message (fault : ResolutionFault) : String :=
  match fault.clash with
  | .types owner holder identifier =>
      s!"{fault.language.name}: types '{owner}' and '{holder}' both render as '{identifier}'"
  | .member owner case natural candidate holder =>
      s!"{fault.language.name}: '{owner}.{case}' collides as '{natural}' and its " ++
        s!"disambiguated name '{candidate}' is already claimed by {holder.display}"

/-- The name of the type a symbol is, or the symbol as a diagnostic names it. -/
def SymbolKey.typeNameOrDisplay : SymbolKey → String
  | .type name => name
  | key => key.display

def bindTypes (naming : Naming) (taken : List Binding) :
    List TypeDecl → Except Clash (List Binding)
  | [] => .ok taken
  | decl :: rest =>
      let identifier := naming.typeName decl.name
      match holder? taken identifier with
      | some holder => .error (.types decl.name holder.typeNameOrDisplay identifier)
      | none => bindTypes naming (taken ++ [⟨.type decl.name, identifier⟩]) rest

/-- The identifier of a case, given what is taken before it. -/
def memberIdentifier (naming : Naming) (taken : List Binding) (enum : EnumType)
    (case : EnumCase) : Except Clash String :=
  let natural := naming.memberName enum case
  match holder? taken natural with
  | none => .ok natural
  | some _ =>
      let candidate := natural ++ naming.typeName enum.name
      match holder? taken candidate with
      | none => .ok candidate
      | some holder => .error (.member enum.name case.name natural candidate holder)

/-- Binds the cases of one enum after the bindings in `taken`. -/
def bindCases (naming : Naming) (enum : EnumType) (taken : List Binding) :
    List EnumCase → Except Clash (List Binding)
  | [] => .ok taken
  | case :: rest =>
      match memberIdentifier naming taken enum case with
      | .error clash => .error clash
      | .ok identifier =>
          bindCases naming enum (taken ++ [⟨.member enum.name case.name, identifier⟩]) rest

def bindMembers (naming : Naming) (taken : List Binding) :
    List EnumType → Except Clash (List Binding)
  | [] => .ok taken
  | enum :: rest =>
      match bindCases naming enum taken enum.cases with
      | .error clash => .error clash
      | .ok taken => bindMembers naming taken rest

def resolve (naming : Naming) (model : Model) : Except ResolutionFault Symbols :=
  match bindTypes naming [] model.decls >>= (bindMembers naming · model.enums) with
  | .ok bindings => .ok ⟨naming.language, bindings⟩
  | .error clash => .error ⟨naming.language, clash⟩

end WireSchema
