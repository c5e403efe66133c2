import WireSchema.Schema.Model

namespace WireSchema

/-! Records that contain each other by value.

A field whose type is a bare name holds a value of that type inside the record.  A record
that is led back to itself that way would need infinite space.
-/

/-- The type a field holds by value, when it is a declared one. -/
def Field.embedded? (field : Field) : Option String :=
  match field.type with
  | .named name => some name
  | _ => none

def TypeDecl.embedded : TypeDecl → List String
  | .enum _ => []
  | .record decl => decl.fields.filterMap Field.embedded?

/-- Searches for `goal` from the names in `pending`.  Every step drops a pending name and
follows the declaration it names, unless that declaration is no longer in `remaining`
because it has been followed before. -/
def embedsFrom (goal : String) (remaining : List TypeDecl) (pending : List String) : Bool :=
  match pending with
  | [] => false
  | name :: rest =>
      if name = goal then true
      else
        match _found : remaining.find? (·.name == name) with
        | none => embedsFrom goal remaining rest
        | some decl => embedsFrom goal (remaining.erase decl) (decl.embedded ++ rest)
termination_by (remaining.length, pending.length)
decreasing_by
  · exact Prod.Lex.right _ (by simp)
  · have member : decl ∈ remaining := List.mem_of_find?_eq_some _found
    have smaller := List.length_erase_of_mem member
    have positive := List.length_pos_of_mem member
    exact Prod.Lex.left _ _ (by omega)

/-- Whether a value of type `start` holds a value of type `goal`, at any depth. -/
def Model.embeds (model : Model) (start goal : String) : Bool :=
  embedsFrom goal model.decls [start]

end WireSchema
