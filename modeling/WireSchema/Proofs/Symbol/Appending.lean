import WireSchema.Proofs.Symbol.Locality

namespace WireSchema

/-! A type that is appended to a schema renames nothing before it.

The identifier of the new type is claimed before any case is looked at.  If no earlier type
and no earlier case can have that identifier, the earlier cases are met as before, and only
the cases of the new type are left.
-/

/-- The enum whose case could not be given an identifier. -/
def Clash.memberOwner? : Clash → Option String
  | .types _ _ _ => none
  | .member owner _ _ _ _ => some owner

section

variable {naming : Naming} {taken : List Binding}

theorem memberIdentifier_fault {enum : EnumType} {case : EnumCase} :
    FaultsAre (·.memberOwner? = some enum.name) (memberIdentifier naming taken enum case) := by
  simp only [memberIdentifier]
  split
  · exact .ok _
  · split
    · exact .ok _
    · exact .error rfl

theorem bindCases_fault {enum : EnumType} {cases : List EnumCase} :
    FaultsAre (·.memberOwner? = some enum.name) (bindCases naming enum taken cases) := by
  induction cases generalizing taken with
  | nil => exact .ok taken
  | cons case rest ih =>
      rw [bindCases]
      cases chosen : memberIdentifier naming taken enum case with
      | error clash => exact .error (memberIdentifier_fault clash chosen)
      | ok identifier => exact ih

theorem bindMembers_fault {enums : List EnumType} :
    FaultsAre (fun clash => ∃ enum ∈ enums, clash.memberOwner? = some enum.name)
      (bindMembers naming taken enums) := by
  induction enums generalizing taken with
  | nil => exact .ok taken
  | cons enum rest ih =>
      rw [bindMembers]
      cases bound : bindCases naming enum taken enum.cases with
      | error clash =>
          exact .error ⟨enum, List.mem_cons_self, bindCases_fault clash bound⟩
      | ok bindings =>
          intro clash failed
          obtain ⟨owner, member, owned⟩ := ih clash failed
          exact ⟨owner, List.mem_cons_of_mem _ member, owned⟩

theorem bindMembers_append {first second : List EnumType} :
    bindMembers naming taken (first ++ second) =
      bindMembers naming taken first >>= (bindMembers naming · second) := by
  induction first generalizing taken with
  | nil => rfl
  | cons enum rest ih =>
      rw [List.cons_append, bindMembers, bindMembers]
      cases bindCases naming enum taken enum.cases with
      | error clash => rfl
      | ok bindings => exact ih

end

theorem TypeDecl.mem_enum? {decl : TypeDecl} {enum : EnumType} (member : enum ∈ decl.enum?.toList) :
    enum.name = decl.name := by
  cases decl with
  | enum other => rw [List.mem_singleton.mp member, name]
  | record record => cases member

theorem Symbols.get?_of_subset {symbols larger : Symbols}
    (distinct : (larger.bindings.map Binding.key).Nodup)
    (subset : symbols.bindings ⊆ larger.bindings) {key : SymbolKey}
    (bound : (symbols.get? key).isSome) : larger.get? key = symbols.get? key := by
  obtain ⟨identifier, found⟩ := Option.isSome_iff_exists.mp bound
  rw [found, get?_eq_some_iff distinct]
  exact subset (mem_of_get? found)

/-- The schema of `larger` is that of `model` and one declaration more, whose identifier no
type of the model has and no case of the model can get. -/
structure Appended (naming : Naming) (model larger : Model) (decl : TypeDecl) : Prop where
  decls_eq : larger.decls = model.decls ++ [decl]
  newType : ∀ other ∈ model.decls, naming.typeName other.name ≠ naming.typeName decl.name
  newSpelling : ∀ enum ∈ model.enums, naming.typeName decl.name ∉ naming.spellings enum

namespace Appended

variable {naming : Naming} {model larger : Model} {decl : TypeDecl} {new : List Binding}

theorem enums_eq (appended : Appended naming model larger decl) :
    larger.enums = model.enums ++ decl.enum?.toList := by
  rw [Model.enums, appended.decls_eq, List.filterMap_append, Model.enums]
  cases decl <;> rfl

theorem bindTypes_eq (appended : Appended naming model larger decl)
    (distinct : (model.decls.map fun decl => naming.typeName decl.name).Nodup) :
    bindTypes naming [] larger.decls =
      .ok (model.decls.map naming.bindType ++ [naming.bindType decl]) := by
  rw [bindTypes_eq_ok_iff, appended.decls_eq, List.map_append, List.map_append]
  refine ⟨⟨?_, fun _ _ => nofun⟩, rfl⟩
  apply distinct.append (List.nodup_singleton _)
  intro identifier earlier last
  obtain ⟨other, declared, rfl⟩ := List.mem_map.mp earlier
  exact appended.newType other declared (List.mem_singleton.mp last)

/-- The run over the cases of the model is the same behind the new type. -/
theorem served (appended : Appended naming model larger decl)
    (served : Served (model.decls.map naming.bindType) (model.enums.flatMap naming.requests) new) :
    Served (model.decls.map naming.bindType ++ [naming.bindType decl])
      (model.enums.flatMap naming.requests) new := by
  apply served.congr
  apply AgreeOn.symm
  apply AgreeOn.of_unused
  intro binding last spelled
  rw [List.mem_singleton.mp last, List.flatMap_assoc] at spelled
  obtain ⟨enum, declared, spelled⟩ := List.mem_flatMap.mp spelled
  exact appended.newSpelling enum declared spelled

/-- What is left to do is to bind the cases of the new type. -/
theorem bound_eq (appended : Appended naming model larger decl)
    (distinct : (model.decls.map fun decl => naming.typeName decl.name).Nodup)
    (served : Served (model.decls.map naming.bindType) (model.enums.flatMap naming.requests) new) :
    (bindTypes naming [] larger.decls >>= (bindMembers naming · larger.enums)) =
      bindMembers naming (model.decls.map naming.bindType ++ [naming.bindType decl] ++ new)
        decl.enum?.toList := by
  have earlier := bindMembers_eq_ok_iff.mpr ⟨new, appended.served served, rfl⟩
  rw [appended.bindTypes_eq distinct, appended.enums_eq]
  change bindMembers naming _ (model.enums ++ decl.enum?.toList) = _
  rw [bindMembers_append, earlier]
  rfl

end Appended

/-- Appending a type leaves all identifiers as they are, or fails at a case of that type. -/
theorem resolve_appended {naming : Naming} {model larger : Model} {decl : TypeDecl}
    {symbols : Symbols} (resolved : resolve naming model = .ok symbols)
    (appended : Appended naming model larger decl) :
    ((∃ extended, resolve naming larger = .ok extended ∧
          ∀ key, model.HasSymbol key → extended.get? key = symbols.get? key) ∨
        ∃ clash, resolve naming larger = .error ⟨naming.language, clash⟩ ∧
          clash.memberOwner? = some decl.name) ∧
      ∀ record, decl = .record record → ∃ extended, resolve naming larger = .ok extended := by
  obtain ⟨distinct, new, served, same⟩ := resolve_eq_ok_iff.mp resolved
  have bound := appended.bound_eq distinct served
  refine ⟨?_, ?_⟩
  · cases outcome : bindMembers naming
        (model.decls.map naming.bindType ++ [naming.bindType decl] ++ new) decl.enum?.toList with
    | ok bindings =>
        have success : resolve naming larger = .ok ⟨naming.language, bindings⟩ :=
          resolve_eq_ok_iff_bound.mpr ⟨bindings, bound.trans outcome, rfl⟩
        obtain ⟨last, _, rfl⟩ := bindMembers_eq_ok_iff.mp outcome
        refine .inl ⟨_, success, ?_⟩
        intro key symbol
        apply Symbols.get?_of_subset (resolve_keys success ▸ larger.nodup_symbolKeys)
        · rw [← same]
          intro binding member
          cases List.mem_append.mp member with
          | inl type => simp [type]
          | inr case => simp [case]
        · exact resolve_binds resolved symbol
    | error clash =>
        have failure : resolve naming larger = .error ⟨naming.language, clash⟩ := by
          rw [resolve, bound, outcome]
        obtain ⟨enum, member, owned⟩ := bindMembers_fault clash outcome
        exact .inr ⟨clash, failure, TypeDecl.mem_enum? member ▸ owned⟩
  · intro record same
    subst same
    exact ⟨_, resolve_eq_ok_iff_bound.mpr ⟨_, bound, rfl⟩⟩

/-- `contested` with an enum more, whose case `X` is taken and whose case `Color` is a type. -/
def contestedMore : Model where
  decls := contested.decls ++
    [.enum ⟨"Shape", .integer, [⟨"X", .integer 0⟩, ⟨"Color", .integer 1⟩, ⟨"DOT", .integer 2⟩]⟩]
  valid := by decide

theorem contestedMore_appended :
    resolve .verbatim contested = .ok contestedSymbols ∧
      ∃ extended, resolve .verbatim contestedMore = .ok extended ∧
        ∀ key, contested.HasSymbol key → extended.get? key = contestedSymbols.get? key := by
  have resolved : resolve .verbatim contested = .ok contestedSymbols := by decide
  have appended : Appended .verbatim contested contestedMore
      (.enum ⟨"Shape", .integer, [⟨"X", .integer 0⟩, ⟨"Color", .integer 1⟩, ⟨"DOT", .integer 2⟩]⟩) :=
    ⟨rfl, by decide, by decide⟩
  cases (resolve_appended resolved appended).1 with
  | inl success => exact ⟨resolved, success⟩
  | inr failure =>
      obtain ⟨clash, failed, _⟩ := failure
      have succeeds : (resolve .verbatim contestedMore).isOk = true := by decide
      rw [failed] at succeeds
      cases succeeds

end WireSchema
