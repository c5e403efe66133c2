import WireSchema.Proofs.Symbol.Locality

namespace WireSchema

/-! The exact outcome of a resolution.

A resolution binds one symbol after the other, first the types and then the cases.  It fails at
the first symbol that cannot be bound, so all that matters is who holds which identifier when a
symbol is met.  That is said here without the run: a type meets the types before it, and a case
meets all types and the cases before it.
-/

/-- Binds the items one after the other.  Each step sees the bindings made before it. -/
def bindAll (step : List Binding → ι → Except Clash Binding) (taken : List Binding) :
    List ι → Except Clash (List Binding)
  | [] => .ok taken
  | item :: rest => do
      let binding ← step taken item
      bindAll step (taken ++ [binding]) rest

section

variable {step : List Binding → ι → Except Clash Binding} {taken bindings : List Binding}

theorem bindAll_append (first second : List ι) :
    bindAll step taken (first ++ second) =
      bindAll step taken first >>= (bindAll step · second) := by
  induction first generalizing taken with
  | nil => rfl
  | cons item rest ih =>
      rw [List.cons_append, bindAll, bindAll]
      cases step taken item with
      | error clash => rfl
      | ok binding => exact ih

/-- A run succeeds when every item can be bound beside the bindings of the items before it. -/
theorem bindAll_eq_ok_iff {items : List ι} :
    bindAll step taken items = .ok bindings ↔
      ∃ new, taken ++ new = bindings ∧ new.length = items.length ∧
        ∀ position item binding, items[position]? = some item → new[position]? = some binding →
          step (taken ++ new.take position) item = .ok binding := by
  induction items generalizing taken with
  | nil => simp [bindAll]
  | cons first rest ih =>
      simp only [bindAll, bind_eq_ok_iff, ih]
      constructor
      · intro bound
        obtain ⟨head, bindsHead, new, same, length, binds⟩ := bound
        refine ⟨head :: new, by simpa using same, by simp [length], ?_⟩
        intro position item binding atItems atNew
        cases position with
        | zero =>
            cases atItems
            cases atNew
            simpa using bindsHead
        | succ position => simpa using binds position item binding atItems atNew
      · intro bound
        obtain ⟨new, same, length, binds⟩ := bound
        cases new with
        | nil => cases length
        | cons head new =>
            refine ⟨head, by simpa using binds 0 first head rfl rfl, new, by simpa using same,
              by simpa using length, ?_⟩
            intro position item binding atItems atNew
            simpa using binds (position + 1) item binding atItems atNew

/-- A run fails at its first step that fails. -/
theorem bindAll_eq_error_iff {items : List ι} {clash : Clash} :
    bindAll step taken items = .error clash ↔
      ∃ before item after bindings, items = before ++ item :: after ∧
        bindAll step taken before = .ok bindings ∧ step bindings item = .error clash := by
  induction items generalizing taken with
  | nil => simp [bindAll]
  | cons first rest ih =>
      rw [bindAll]
      cases head : step taken first with
      | error other =>
          constructor
          · intro failed
            cases failed
            exact ⟨[], first, rest, taken, rfl, rfl, head⟩
          · intro failed
            obtain ⟨before, item, after, bindings, same, bound, failed⟩ := failed
            cases before with
            | nil =>
                cases same
                cases bound
                rw [head] at failed
                cases failed
                rfl
            | cons _ before =>
                cases same
                rw [bindAll, head] at bound
                cases bound
      | ok binding =>
          refine ih.trans ?_
          constructor
          · intro failed
            obtain ⟨before, item, after, bindings, same, bound, failed⟩ := failed
            refine ⟨first :: before, item, after, bindings, by rw [same]; rfl, ?_, failed⟩
            rw [bindAll, head]
            exact bound
          · intro failed
            obtain ⟨before, item, after, bindings, same, bound, failed⟩ := failed
            cases before with
            | nil =>
                cases same
                cases bound
                rw [head] at failed
                cases failed
            | cons _ before =>
                cases same
                rw [bindAll, head] at bound
                exact ⟨before, item, after, bindings, rfl, bound, failed⟩

/-- Identifiers stay distinct when each step takes one that nothing holds. -/
theorem bindAll_distinct {items : List ι}
    (fresh : ∀ taken item binding, step taken item = .ok binding →
      holder? taken binding.identifier = none)
    (distinct : (taken.map Binding.identifier).Nodup)
    (bound : bindAll step taken items = .ok bindings) :
    (bindings.map Binding.identifier).Nodup := by
  induction items generalizing taken with
  | nil =>
      cases bound
      exact distinct
  | cons item rest ih =>
      obtain ⟨binding, head, tail⟩ := bind_eq_ok_iff.mp bound
      exact ih ((Extends.snoc (fresh _ _ _ head)).distinct distinct) tail

end

/-- Where identifiers are distinct, each of them has one holder. -/
theorem holder?_eq_some_iff {bindings : List Binding} {identifier : String} {holder : SymbolKey}
    (distinct : (bindings.map Binding.identifier).Nodup) :
    holder? bindings identifier = some holder ↔ ⟨holder, identifier⟩ ∈ bindings := by
  constructor
  · intro found
    obtain ⟨binding, lookup, rfl⟩ := Option.map_eq_some_iff.mp found
    have same : binding.identifier = identifier := by simpa using List.find?_some lookup
    subst same
    exact List.mem_of_find?_eq_some lookup
  · intro member
    cases found : bindings.find? (·.identifier == identifier) with
    | none =>
        have absent := List.find?_eq_none.mp found _ member
        simp at absent
    | some other =>
        have same : other.identifier = identifier := by simpa using List.find?_some found
        have only := List.inj_on_of_nodup_map distinct (List.mem_of_find?_eq_some found) member same
        rw [holder?, found, only]
        rfl

/-- All enum cases in the order of the schema, each with its enum. -/
def Model.members (model : Model) : List (EnumType × EnumCase) :=
  model.enums.flatMap fun enum => enum.cases.map fun case => (enum, case)

namespace Naming

def typeStep (naming : Naming) (taken : List Binding) (decl : TypeDecl) : Except Clash Binding :=
  match holder? taken (naming.typeName decl.name) with
  | some holder => .error (.types decl.name holder.typeNameOrDisplay (naming.typeName decl.name))
  | none => .ok (naming.bindType decl)

def memberStep (naming : Naming) (taken : List Binding) (member : EnumType × EnumCase) :
    Except Clash Binding := do
  let identifier ← memberIdentifier naming taken member.1 member.2
  .ok ⟨.member member.1.name member.2.name, identifier⟩

variable {naming : Naming} {taken bindings : List Binding} {clash : Clash}

theorem bindTypes_eq_bindAll (decls : List TypeDecl) :
    bindTypes naming taken decls = bindAll naming.typeStep taken decls := by
  induction decls generalizing taken with
  | nil => rfl
  | cons decl rest ih =>
      rw [bindTypes, bindAll, typeStep]
      cases holder? taken (naming.typeName decl.name) with
      | some holder => rfl
      | none => exact ih

theorem bindCases_eq_bindAll (enum : EnumType) (cases : List EnumCase) :
    bindCases naming enum taken cases =
      bindAll naming.memberStep taken (cases.map fun case => (enum, case)) := by
  induction cases generalizing taken with
  | nil => rfl
  | cons case rest ih =>
      rw [bindCases, List.map_cons, bindAll, memberStep]
      cases memberIdentifier naming taken enum case with
      | error clash => rfl
      | ok identifier => exact ih

/-- The two loops over the enums and their cases are one run over all cases. -/
theorem bindMembers_eq_bindAll (enums : List EnumType) :
    bindMembers naming taken enums =
      bindAll naming.memberStep taken
        (enums.flatMap fun enum => enum.cases.map fun case => (enum, case)) := by
  induction enums generalizing taken with
  | nil => rfl
  | cons enum rest ih =>
      rw [bindMembers, List.flatMap_cons, bindAll_append, bindCases_eq_bindAll]
      cases bindAll naming.memberStep taken (enum.cases.map fun case => (enum, case)) with
      | error clash => rfl
      | ok bindings => exact ih

theorem typeStep_eq_error_iff {decl : TypeDecl} :
    naming.typeStep taken decl = .error clash ↔
      ∃ holder, holder? taken (naming.typeName decl.name) = some holder ∧
        .types decl.name holder.typeNameOrDisplay (naming.typeName decl.name) = clash := by
  rw [typeStep]
  cases holder? taken (naming.typeName decl.name) <;> simp

theorem memberStep_eq_ok_iff {enum : EnumType} {case : EnumCase} {binding : Binding} :
    naming.memberStep taken (enum, case) = .ok binding ↔
      binding.key = .member enum.name case.name ∧
        (naming.request enum case).Gets taken binding.identifier := by
  simp only [memberStep, bind_eq_ok_iff, memberIdentifier_eq_ok_iff, Except.ok.injEq]
  constructor
  · intro bound
    obtain ⟨identifier, gets, rfl⟩ := bound
    exact ⟨rfl, gets⟩
  · intro bound
    obtain ⟨key, identifier⟩ := binding
    obtain ⟨rfl, gets⟩ := bound
    exact ⟨identifier, gets, rfl⟩

theorem memberStep_fresh {member : EnumType × EnumCase} {binding : Binding}
    (bound : naming.memberStep taken member = .ok binding) :
    holder? taken binding.identifier = none := by
  obtain ⟨identifier, chosen, same⟩ := bind_eq_ok_iff.mp bound
  cases same
  exact memberIdentifier_free chosen

theorem memberStep_eq_error_iff {enum : EnumType} {case : EnumCase} :
    naming.memberStep taken (enum, case) = .error clash ↔
      ¬ Free taken (naming.memberName enum case) ∧
        ∃ holder, holder? taken (naming.memberName enum case ++ naming.typeName enum.name) =
            some holder ∧
          .member enum.name case.name (naming.memberName enum case)
            (naming.memberName enum case ++ naming.typeName enum.name) holder = clash := by
  rw [← holder?_eq_none_iff_free]
  simp only [memberStep, memberIdentifier]
  cases holder? taken (naming.memberName enum case) with
  | none => simp [bind, Except.bind]
  | some other =>
      cases holder? taken (naming.memberName enum case ++ naming.typeName enum.name) <;>
        simp [bind, Except.bind]

end Naming

/-- The types of a model have identifiers of their own. -/
def Naming.TypesApart (naming : Naming) (decls : List TypeDecl) : Prop :=
  (decls.map fun decl => naming.typeName decl.name).Nodup

/-- Who holds which identifier when the case at `position` is met: the types, and the cases
before it, to which the identifiers in `given` were given. -/
def Naming.heldAt (naming : Naming) (model : Model) (given : List Binding) (position : Nat) :
    List Binding :=
  model.decls.map naming.bindType ++ given.take position

/-- The bindings in `given` are those of the `members`, in their order.  Each member gets its
natural identifier unless that is held when the member is met, and else the suffixed one. -/
structure Naming.Gives (naming : Naming) (model : Model) (members : List (EnumType × EnumCase))
    (given : List Binding) : Prop where
  length_eq : given.length = members.length
  gets : ∀ position enum case binding, members[position]? = some (enum, case) →
    given[position]? = some binding →
      binding.key = .member enum.name case.name ∧
        (naming.request enum case).Gets (naming.heldAt model given position) binding.identifier

/-- What a resolution comes to. -/
inductive Resolves (naming : Naming) (model : Model) : Except ResolutionFault Symbols → Prop where
  /-- The type `owner` is the first whose identifier an earlier type has. -/
  | typeClash {before after : List TypeDecl} {owner holder : TypeDecl} :
      model.decls = before ++ owner :: after → naming.TypesApart before → holder ∈ before →
      naming.typeName holder.name = naming.typeName owner.name →
      Resolves naming model
        (.error ⟨naming.language, .types owner.name holder.name (naming.typeName owner.name)⟩)
  /-- For all cases before this one there was an identifier, but both of this one are held. -/
  | memberClash {before after : List (EnumType × EnumCase)} {enum : EnumType} {case : EnumCase}
      {given : List Binding} {holder : SymbolKey} :
      naming.TypesApart model.decls → model.members = before ++ (enum, case) :: after →
      naming.Gives model before given →
      ¬ Free (naming.heldAt model given before.length) (naming.memberName enum case) →
      ⟨holder, naming.memberName enum case ++ naming.typeName enum.name⟩ ∈
        naming.heldAt model given before.length →
      Resolves naming model
        (.error ⟨naming.language, .member enum.name case.name (naming.memberName enum case)
          (naming.memberName enum case ++ naming.typeName enum.name) holder⟩)
  | resolved {given : List Binding} :
      naming.TypesApart model.decls → naming.Gives model model.members given →
      Resolves naming model (.ok ⟨naming.language, model.decls.map naming.bindType ++ given⟩)

section

variable {naming : Naming} {model : Model} {bindings : List Binding} {clash : Clash}

theorem bindTypes_eq_ok_iff_apart {decls : List TypeDecl} :
    bindTypes naming [] decls = .ok bindings ↔
      naming.TypesApart decls ∧ decls.map naming.bindType = bindings := by
  have free : ∀ decl ∈ decls, Free [] (naming.typeName decl.name) := fun _ _ => nofun
  rw [bindTypes_eq_ok_iff, and_iff_left free, List.nil_append, Naming.TypesApart]

theorem Naming.TypesApart.identifiers {decls : List TypeDecl} (apart : naming.TypesApart decls) :
    ((decls.map naming.bindType).map Binding.identifier).Nodup := by
  rw [List.map_map]
  exact apart

theorem bindTypes_eq_error_iff {decls : List TypeDecl} :
    bindTypes naming [] decls = .error clash ↔
      ∃ before owner after holder, decls = before ++ owner :: after ∧
        naming.TypesApart before ∧ holder ∈ before ∧
        naming.typeName holder.name = naming.typeName owner.name ∧
        .types owner.name holder.name (naming.typeName owner.name) = clash := by
  rw [Naming.bindTypes_eq_bindAll, bindAll_eq_error_iff]
  simp only [← Naming.bindTypes_eq_bindAll, bindTypes_eq_ok_iff_apart,
    Naming.typeStep_eq_error_iff]
  constructor
  · intro failed
    obtain ⟨before, owner, after, _, same, ⟨apart, rfl⟩, key, held, reported⟩ := failed
    obtain ⟨holder, member, binding⟩ :=
      List.mem_map.mp ((holder?_eq_some_iff apart.identifiers).mp held)
    obtain ⟨rfl, shared⟩ := Binding.mk.inj binding
    exact ⟨before, owner, after, holder, same, apart, member, shared, reported⟩
  · intro failed
    obtain ⟨before, owner, after, holder, same, apart, member, shared, reported⟩ := failed
    refine ⟨before, owner, after, _, same, ⟨apart, rfl⟩, .type holder.name, ?_, reported⟩
    rw [holder?_eq_some_iff apart.identifiers, ← shared]
    exact List.mem_map_of_mem member

theorem bindAll_memberStep_eq_ok_iff {members : List (EnumType × EnumCase)} :
    bindAll naming.memberStep (model.decls.map naming.bindType) members = .ok bindings ↔
      ∃ given, naming.Gives model members given ∧
        model.decls.map naming.bindType ++ given = bindings := by
  simp only [bindAll_eq_ok_iff, Prod.forall, Naming.memberStep_eq_ok_iff]
  constructor
  · intro bound
    obtain ⟨given, same, length, gets⟩ := bound
    exact ⟨given, ⟨length, gets⟩, same⟩
  · intro bound
    obtain ⟨given, gives, same⟩ := bound
    exact ⟨given, same, gives.length_eq, gives.gets⟩

theorem Naming.Gives.heldAt_length {members : List (EnumType × EnumCase)} {given : List Binding}
    (gives : naming.Gives model members given) :
    naming.heldAt model given members.length = model.decls.map naming.bindType ++ given := by
  rw [heldAt, ← gives.length_eq, List.take_length]

theorem Naming.Gives.identifiers {members : List (EnumType × EnumCase)} {given : List Binding}
    (gives : naming.Gives model members given) (apart : naming.TypesApart model.decls) :
    ((naming.heldAt model given members.length).map Binding.identifier).Nodup := by
  rw [gives.heldAt_length]
  have bound := bindAll_memberStep_eq_ok_iff.mpr ⟨given, gives, rfl⟩
  exact bindAll_distinct (fun _ _ _ => memberStep_fresh) apart.identifiers bound

theorem bindMembers_eq_ok_iff_gives :
    bindMembers naming (model.decls.map naming.bindType) model.enums = .ok bindings ↔
      ∃ given, naming.Gives model model.members given ∧
        model.decls.map naming.bindType ++ given = bindings := by
  rw [Naming.bindMembers_eq_bindAll]
  exact bindAll_memberStep_eq_ok_iff

theorem bindMembers_eq_error_iff (apart : naming.TypesApart model.decls) :
    bindMembers naming (model.decls.map naming.bindType) model.enums = .error clash ↔
      ∃ before enum case after given holder, model.members = before ++ (enum, case) :: after ∧
        naming.Gives model before given ∧
        ¬ Free (naming.heldAt model given before.length) (naming.memberName enum case) ∧
        ⟨holder, naming.memberName enum case ++ naming.typeName enum.name⟩ ∈
          naming.heldAt model given before.length ∧
        .member enum.name case.name (naming.memberName enum case)
          (naming.memberName enum case ++ naming.typeName enum.name) holder = clash := by
  rw [Naming.bindMembers_eq_bindAll, bindAll_eq_error_iff]
  simp only [Prod.exists, bindAll_memberStep_eq_ok_iff, Naming.memberStep_eq_error_iff]
  constructor
  · intro failed
    obtain ⟨before, enum, case, after, _, same, ⟨given, gives, rfl⟩, held, holder, holds,
      reported⟩ := failed
    have distinct := gives.identifiers apart
    rw [← gives.heldAt_length] at held holds
    rw [holder?_eq_some_iff distinct] at holds
    exact ⟨before, enum, case, after, given, holder, same, gives, held, holds, reported⟩
  · intro failed
    obtain ⟨before, enum, case, after, given, holder, same, gives, held, holds, reported⟩ := failed
    have distinct := gives.identifiers apart
    refine ⟨before, enum, case, after, _, same, ⟨given, gives, rfl⟩, ?_⟩
    rw [← gives.heldAt_length]
    exact ⟨held, holder, (holder?_eq_some_iff distinct).mpr holds, reported⟩

theorem resolve_eq_error_iff_bound {fault : ResolutionFault} :
    resolve naming model = .error fault ↔
      ∃ clash, (bindTypes naming [] model.decls >>= (bindMembers naming · model.enums)) =
          .error clash ∧ ⟨naming.language, clash⟩ = fault := by
  unfold resolve
  cases bindTypes naming [] model.decls >>= (bindMembers naming · model.enums) with
  | error clash => simp
  | ok bindings => simp

/-- A resolution answers what its rules say: it reports the first clash, with the symbol that
holds the contested identifier, or gives every symbol the identifier that it gets. -/
theorem resolve_eq_iff_resolves {result : Except ResolutionFault Symbols} :
    resolve naming model = result ↔ Resolves naming model result := by
  cases result with
  | ok symbols =>
      simp only [resolve_eq_ok_iff_bound, bind_eq_ok_iff, bindTypes_eq_ok_iff_apart]
      constructor
      · intro success
        obtain ⟨_, ⟨_, ⟨apart, rfl⟩, bound⟩, rfl⟩ := success
        obtain ⟨given, gives, rfl⟩ := bindMembers_eq_ok_iff_gives.mp bound
        exact .resolved apart gives
      · intro resolves
        cases resolves with
        | resolved apart gives =>
            exact ⟨_, ⟨_, ⟨apart, rfl⟩, bindMembers_eq_ok_iff_gives.mpr ⟨_, gives, rfl⟩⟩, rfl⟩
  | error fault =>
      simp only [resolve_eq_error_iff_bound, bind_eq_error_iff, bindTypes_eq_ok_iff_apart]
      constructor
      · intro failure
        obtain ⟨clash, failed | ⟨_, ⟨apart, rfl⟩, failed⟩, rfl⟩ := failure
        · obtain ⟨before, owner, after, holder, same, apart, member, shared, rfl⟩ :=
            bindTypes_eq_error_iff.mp failed
          exact .typeClash same apart member shared
        · obtain ⟨before, enum, case, after, given, holder, same, gives, held, holds, rfl⟩ :=
            (bindMembers_eq_error_iff apart).mp failed
          exact .memberClash apart same gives held holds
      · intro resolves
        cases resolves with
        | typeClash same apart member shared =>
            exact ⟨_, .inl (bindTypes_eq_error_iff.mpr
              ⟨_, _, _, _, same, apart, member, shared, rfl⟩), rfl⟩
        | memberClash apart same gives held holds =>
            exact ⟨_, .inr ⟨_, ⟨apart, rfl⟩, (bindMembers_eq_error_iff apart).mpr
              ⟨_, _, _, _, _, _, same, gives, held, holds, rfl⟩⟩, rfl⟩

end

/-- The case that has the natural name is not the symbol that holds the suffixed one. -/
example :
    resolve .verbatim
        ⟨[.enum ⟨"A", .integer, [⟨"x", .integer 0⟩]⟩, .enum ⟨"T", .integer, [⟨"x", .integer 0⟩]⟩,
          .enum ⟨"xT", .integer, []⟩], by decide⟩ =
      .error ⟨.go, .member "T" "x" "x" "xT" (.type "xT")⟩ := by
  decide

end WireSchema
