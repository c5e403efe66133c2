import WireSchema.Proofs.Symbol.Injectivity

namespace WireSchema

/-! What a resolution looks at when it gives a case its identifier.

Taken apart, a resolution that succeeds is a run of requests, one for every case.  A request
asks whether its two spellings are free and nothing else.  So a run is the same after any
bindings that leave the same of its spellings free, whatever else they hold and in
whatever order they were made.
-/

/-- No binding holds the identifier. -/
def Free (taken : List Binding) (identifier : String) : Prop :=
  ∀ binding ∈ taken, binding.identifier ≠ identifier

theorem holder?_eq_none_iff_free {taken : List Binding} {identifier : String} :
    holder? taken identifier = none ↔ Free taken identifier := by
  rw [holder?_eq_none_iff, Free]
  simp

theorem free_append_iff {taken extra : List Binding} {identifier : String} :
    Free (taken ++ extra) identifier ↔ Free taken identifier ∧ Free extra identifier :=
  List.forall_mem_append

theorem free_perm_iff {left right : List Binding} {identifier : String}
    (same : left.Perm right) : Free left identifier ↔ Free right identifier := by
  unfold Free
  simp only [same.mem_iff]

/-- A case that needs an identifier, with the two that it can get. -/
structure Request where
  key : SymbolKey
  natural : String
  suffixed : String

def Request.spellings (request : Request) : List String :=
  [request.natural, request.suffixed]

namespace Naming

def request (naming : Naming) (enum : EnumType) (case : EnumCase) : Request where
  key := .member enum.name case.name
  natural := naming.memberName enum case
  suffixed := naming.memberName enum case ++ naming.typeName enum.name

def requests (naming : Naming) (enum : EnumType) : List Request :=
  enum.cases.map (naming.request enum)

/-- The natural and the suffixed identifiers of all cases of an enum. -/
def spellings (naming : Naming) (enum : EnumType) : List String :=
  (naming.requests enum).flatMap Request.spellings

def bindType (naming : Naming) (decl : TypeDecl) : Binding :=
  ⟨.type decl.name, naming.typeName decl.name⟩

end Naming

inductive Request.Gets (taken : List Binding) (request : Request) : String → Prop where
  | natural : Free taken request.natural → Gets taken request request.natural
  | suffixed : ¬ Free taken request.natural → Free taken request.suffixed →
      Gets taken request request.suffixed

/-- The requests are met one after the other, and `new` are the bindings that this makes. -/
inductive Served : List Binding → List Request → List Binding → Prop where
  | nil {taken : List Binding} : Served taken [] []
  | cons {taken new : List Binding} {request : Request} {rest : List Request}
      {identifier : String} :
      request.Gets taken identifier → Served (taken ++ [⟨request.key, identifier⟩]) rest new →
      Served taken (request :: rest) (⟨request.key, identifier⟩ :: new)

/-- The same of the spellings are free beside either bindings. -/
def AgreeOn (spellings : List String) (left right : List Binding) : Prop :=
  ∀ spelling ∈ spellings, Free left spelling ↔ Free right spelling

namespace AgreeOn

variable {spellings : List String} {left right taken extra : List Binding}

theorem symm (agree : AgreeOn spellings left right) : AgreeOn spellings right left :=
  fun spelling member => (agree spelling member).symm

theorem mono {fewer : List String} (subset : fewer ⊆ spellings)
    (agree : AgreeOn spellings left right) : AgreeOn fewer left right :=
  fun spelling member => agree spelling (subset member)

theorem append (agree : AgreeOn spellings left right) (extra : List Binding) :
    AgreeOn spellings (left ++ extra) (right ++ extra) := by
  intro spelling member
  rw [free_append_iff, free_append_iff, agree spelling member]

theorem of_perm (same : left.Perm right) : AgreeOn spellings left right :=
  fun _ _ => free_perm_iff same

/-- Bindings of other identifiers do not matter. -/
theorem of_unused (unused : ∀ binding ∈ extra, binding.identifier ∉ spellings) :
    AgreeOn spellings (taken ++ extra) taken := by
  intro spelling member
  rw [free_append_iff]
  apply and_iff_left
  intro binding inside same
  exact unused binding inside (same ▸ member)

end AgreeOn

section

variable {request : Request} {requests first second : List Request} {identifier : String}
  {taken left right new : List Binding}

theorem Request.Gets.mem_spellings (gets : request.Gets taken identifier) :
    identifier ∈ request.spellings := by
  cases gets with
  | natural _ => exact List.mem_cons_self
  | suffixed _ _ => exact List.mem_cons_of_mem _ (List.mem_singleton.mpr rfl)

theorem Request.Gets.congr (agree : AgreeOn request.spellings left right)
    (gets : request.Gets left identifier) : request.Gets right identifier := by
  have natural : Free left request.natural ↔ Free right request.natural :=
    agree _ List.mem_cons_self
  have suffixed : Free left request.suffixed ↔ Free right request.suffixed :=
    agree _ (List.mem_cons_of_mem _ (List.mem_singleton.mpr rfl))
  cases gets with
  | natural free => exact .natural (natural.mp free)
  | suffixed held free => exact .suffixed (mt natural.mpr held) (suffixed.mp free)

theorem Served.congr (agree : AgreeOn (requests.flatMap Request.spellings) left right)
    (served : Served left requests new) : Served right requests new := by
  induction served generalizing right with
  | nil => exact .nil
  | cons gets _ ih =>
      rw [List.flatMap_cons] at agree
      apply Served.cons
      · exact gets.congr (agree.mono (List.subset_append_left _ _))
      · exact ih ((agree.mono (List.subset_append_right _ _)).append _)

theorem Served.mem_spellings (served : Served taken requests new) {binding : Binding}
    (member : binding ∈ new) : binding.identifier ∈ requests.flatMap Request.spellings := by
  induction served with
  | nil => cases member
  | cons gets _ ih =>
      rw [List.flatMap_cons]
      cases List.mem_cons.mp member with
      | inl same => exact List.mem_append_left _ (same ▸ gets.mem_spellings)
      | inr later => exact List.mem_append_right _ (ih later)

@[simp] theorem served_nil_iff : Served taken [] new ↔ new = [] := by
  constructor
  · intro served
    cases served
    rfl
  · intro none
    exact none ▸ .nil

theorem served_append_iff :
    Served taken (first ++ second) new ↔
      ∃ newFirst newSecond, Served taken first newFirst ∧
        Served (taken ++ newFirst) second newSecond ∧ newFirst ++ newSecond = new := by
  induction first generalizing taken new with
  | nil => simp
  | cons request rest ih =>
      constructor
      · intro served
        cases served with
        | cons gets later =>
            obtain ⟨newFirst, newSecond, head, tail, rfl⟩ := ih.mp later
            exact ⟨_ :: newFirst, newSecond, .cons gets head, by simpa using tail, rfl⟩
      · intro split
        obtain ⟨_, newSecond, head, tail, rfl⟩ := split
        cases head with
        | cons gets later =>
            exact .cons gets (ih.mpr ⟨_, newSecond, later, by simpa using tail, rfl⟩)

end

/-! The steps of a resolution, in these terms. -/

section

variable {naming : Naming} {taken bindings : List Binding}

theorem gets_of_memberIdentifier {enum : EnumType} {case : EnumCase} {identifier : String}
    (chosen : memberIdentifier naming taken enum case = .ok identifier) :
    (naming.request enum case).Gets taken identifier := by
  simp only [memberIdentifier] at chosen
  split at chosen
  · rename_i free
    cases chosen
    exact .natural (holder?_eq_none_iff_free.mp free)
  · rename_i holder held
    have held : ¬ Free taken (naming.memberName enum case) := by
      rw [← holder?_eq_none_iff_free, held]
      exact Option.some_ne_none holder
    split at chosen
    · rename_i free
      cases chosen
      exact .suffixed held (holder?_eq_none_iff_free.mp free)
    · cases chosen

theorem memberIdentifier_eq_ok_iff {enum : EnumType} {case : EnumCase} {identifier : String} :
    memberIdentifier naming taken enum case = .ok identifier ↔
      (naming.request enum case).Gets taken identifier := by
  refine ⟨gets_of_memberIdentifier, fun gets => ?_⟩
  cases gets with
  | natural free =>
      have free : holder? taken (naming.memberName enum case) = none :=
        holder?_eq_none_iff_free.mpr free
      simp only [memberIdentifier, free, Naming.request]
  | suffixed held free =>
      have held : holder? taken (naming.memberName enum case) ≠ none :=
        mt holder?_eq_none_iff_free.mp held
      have free : holder? taken (naming.memberName enum case ++ naming.typeName enum.name) = none :=
        holder?_eq_none_iff_free.mpr free
      obtain ⟨holder, held⟩ := Option.ne_none_iff_exists'.mp held
      simp only [memberIdentifier, held, free, Naming.request]

theorem bindCases_eq_ok_iff {enum : EnumType} {cases : List EnumCase} :
    bindCases naming enum taken cases = .ok bindings ↔
      ∃ new, Served taken (cases.map (naming.request enum)) new ∧ taken ++ new = bindings := by
  induction cases generalizing taken with
  | nil => simp [bindCases]
  | cons case rest ih =>
      simp only [bindCases, List.map_cons]
      cases chosen : memberIdentifier naming taken enum case with
      | error clash =>
          simp only [reduceCtorEq, false_iff]
          intro bound
          obtain ⟨_, served, _⟩ := bound
          cases served with
          | cons gets _ =>
              rw [memberIdentifier_eq_ok_iff.mpr gets] at chosen
              cases chosen
      | ok identifier =>
          have gets := memberIdentifier_eq_ok_iff.mp chosen
          simp only [ih]
          constructor
          · intro bound
            obtain ⟨new, served, rfl⟩ := bound
            exact ⟨_ :: new, .cons gets served, by simp [Naming.request]⟩
          · intro bound
            obtain ⟨_, served, rfl⟩ := bound
            cases served with
            | cons others later =>
                have same := memberIdentifier_eq_ok_iff.mpr others
                rw [chosen] at same
                cases same
                exact ⟨_, later, by simp [Naming.request]⟩

theorem bindMembers_eq_ok_iff {enums : List EnumType} :
    bindMembers naming taken enums = .ok bindings ↔
      ∃ new, Served taken (enums.flatMap naming.requests) new ∧ taken ++ new = bindings := by
  induction enums generalizing taken with
  | nil => simp [bindMembers]
  | cons enum rest ih =>
      simp only [bindMembers, List.flatMap_cons, served_append_iff]
      cases chosen : bindCases naming enum taken enum.cases with
      | error clash =>
          simp only [reduceCtorEq, false_iff]
          intro bound
          obtain ⟨_, ⟨new, _, served, _, _⟩, _⟩ := bound
          rw [bindCases_eq_ok_iff.mpr ⟨new, served, rfl⟩] at chosen
          cases chosen
      | ok middle =>
          obtain ⟨new, served, rfl⟩ := bindCases_eq_ok_iff.mp chosen
          simp only [ih]
          constructor
          · intro bound
            obtain ⟨later, servedLater, rfl⟩ := bound
            exact ⟨new ++ later, ⟨new, later, served, servedLater, rfl⟩, by simp⟩
          · intro bound
            obtain ⟨_, ⟨other, later, servedOther, servedLater, rfl⟩, rfl⟩ := bound
            have same := bindCases_eq_ok_iff.mpr ⟨other, servedOther, rfl⟩
            have same := same.symm.trans chosen
            simp only [Except.ok.injEq, List.append_cancel_left_eq] at same
            subst same
            exact ⟨later, servedLater, by simp⟩

theorem bindTypes_eq_ok_iff {decls : List TypeDecl} :
    bindTypes naming taken decls = .ok bindings ↔
      ((decls.map fun decl => naming.typeName decl.name).Nodup ∧
        ∀ decl ∈ decls, Free taken (naming.typeName decl.name)) ∧
      taken ++ decls.map naming.bindType = bindings := by
  induction decls generalizing taken with
  | nil => simp [bindTypes]
  | cons decl rest ih =>
      have later : (∀ other ∈ rest, Free (taken ++ [naming.bindType decl])
          (naming.typeName other.name)) ↔
            naming.typeName decl.name ∉ rest.map (fun other => naming.typeName other.name) ∧
              ∀ other ∈ rest, Free taken (naming.typeName other.name) := by
        simp only [free_append_iff, List.mem_map, not_exists, not_and]
        constructor
        · intro free
          refine ⟨fun other member same => ?_, fun other member => (free other member).1⟩
          exact (free other member).2 _ (List.mem_singleton.mpr rfl) same.symm
        · intro both other member
          refine ⟨both.2 other member, fun binding inside same => ?_⟩
          rw [List.mem_singleton.mp inside] at same
          exact both.1 other member same.symm
      simp only [bindTypes, List.map_cons, List.nodup_cons, List.forall_mem_cons]
      cases found : holder? taken (naming.typeName decl.name) with
      | some holder =>
          have held : ¬ Free taken (naming.typeName decl.name) := by
            rw [← holder?_eq_none_iff_free, found]
            exact Option.some_ne_none holder
          simp [held]
      | none =>
          have free := holder?_eq_none_iff_free.mp found
          have step := @ih (taken ++ [naming.bindType decl])
          rw [later, List.append_assoc, List.singleton_append] at step
          refine step.trans ?_
          constructor
          · intro bound
            obtain ⟨⟨distinct, new, others⟩, same⟩ := bound
            exact ⟨⟨⟨new, distinct⟩, free, others⟩, same⟩
          · intro bound
            obtain ⟨⟨⟨new, distinct⟩, _, others⟩, same⟩ := bound
            exact ⟨⟨distinct, new, others⟩, same⟩

theorem resolve_eq_ok_iff_bound {model : Model} {symbols : Symbols} :
    resolve naming model = .ok symbols ↔
      ∃ bindings, (bindTypes naming [] model.decls >>= (bindMembers naming · model.enums)) =
          .ok bindings ∧ ⟨naming.language, bindings⟩ = symbols := by
  unfold resolve
  cases bindTypes naming [] model.decls >>= (bindMembers naming · model.enums) with
  | error clash => simp
  | ok bindings => simp

/-- A resolution succeeds when the types have distinct identifiers and every case gets one. -/
theorem resolve_eq_ok_iff {model : Model} {symbols : Symbols} :
    resolve naming model = .ok symbols ↔
      (model.decls.map fun decl => naming.typeName decl.name).Nodup ∧
        ∃ new, Served (model.decls.map naming.bindType) (model.enums.flatMap naming.requests) new ∧
          ⟨naming.language, model.decls.map naming.bindType ++ new⟩ = symbols := by
  have free : ∀ decl ∈ model.decls, Free [] (naming.typeName decl.name) := fun _ _ => nofun
  simp only [resolve_eq_ok_iff_bound, bind_eq_ok_iff, bindTypes_eq_ok_iff, bindMembers_eq_ok_iff,
    List.nil_append]
  constructor
  · intro success
    obtain ⟨_, ⟨_, ⟨⟨distinct, _⟩, rfl⟩, new, served, rfl⟩, same⟩ := success
    exact ⟨distinct, new, served, same⟩
  · intro success
    obtain ⟨distinct, new, served, same⟩ := success
    exact ⟨_, ⟨_, ⟨⟨distinct, free⟩, rfl⟩, new, served, rfl⟩, same⟩

/-- A type has the identifier that the naming gives it. -/
theorem resolve_type {model : Model} {symbols : Symbols} {decl : TypeDecl}
    (resolved : resolve naming model = .ok symbols) (declared : decl ∈ model.decls) :
    symbols.type? decl.name = some (naming.typeName decl.name) := by
  have distinct : (symbols.bindings.map Binding.key).Nodup :=
    resolve_keys resolved ▸ model.nodup_symbolKeys
  obtain ⟨_, new, _, rfl⟩ := resolve_eq_ok_iff.mp resolved
  have bound : naming.bindType decl ∈ model.decls.map naming.bindType ++ new :=
    List.mem_append_left _ (List.mem_map_of_mem declared)
  exact (Symbols.get?_eq_some_iff distinct).mpr bound

end

end WireSchema
