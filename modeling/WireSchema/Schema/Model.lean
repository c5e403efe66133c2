import WireSchema.Schema.Validation

namespace WireSchema

/-! A model is a schema that passed validation.

The check travels with the declarations as a proof, so whatever is computed from a model
may rely on it.
-/

/-- A validated schema, its declarations in the order they were given. -/
structure Model where
  decls : List TypeDecl
  valid : validate decls = .ok ()
deriving DecidableEq

namespace Model

def ofDecls (decls : List TypeDecl) : Except SchemaFault Model :=
  match accepted : validate decls with
  | .ok () => .ok ⟨decls, accepted⟩
  | .error fault => .error fault

def size (model : Model) : Nat := model.decls.length

def isEmpty (model : Model) : Bool := model.decls.isEmpty

def enums (model : Model) : List EnumType := model.decls.filterMap TypeDecl.enum?

def records (model : Model) : List RecordType := model.decls.filterMap TypeDecl.record?

def index? (model : Model) (name : String) : Option Nat :=
  model.decls.findIdx? (·.name == name)

def find? (model : Model) (name : String) : Option TypeDecl :=
  model.index? name >>= fun index => model.decls[index]?

def declares (model : Model) (name : String) : Bool :=
  (model.index? name).isSome

theorem ofDecls_eq_ok_iff {decls : List TypeDecl} {model : Model} :
    ofDecls decls = .ok model ↔ model.decls = decls := by
  constructor
  · intro built
    unfold ofDecls at built
    split at built
    · cases built; rfl
    · cases built
  · intro same
    subst same
    unfold ofDecls
    split
    · rfl
    · rename_i fault rejected
      rw [model.valid] at rejected
      cases rejected

theorem ofDecls_decls (model : Model) : ofDecls model.decls = .ok model :=
  ofDecls_eq_ok_iff.mpr rfl

/-- Looking a name up by its position finds the first declaration of that name. -/
theorem find?_eq_find? (model : Model) (name : String) :
    model.find? name = model.decls.find? (·.name == name) := by
  rw [List.find?_eq_bind_findIdx?_getElem?]
  rfl

theorem declares_iff (model : Model) (name : String) :
    model.declares name = true ↔ ∃ decl ∈ model.decls, decl.name = name := by
  simp [declares, index?, List.findIdx?_isSome]

end Model

end WireSchema
