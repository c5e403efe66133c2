import WireSchema.Proofs.Schema.Validity
import WireSchema.Symbol.Resolution

namespace WireSchema

/-! The identifiers of a resolution are distinct.

Resolving is a run of single bindings, and every one of them takes an identifier that no
earlier binding holds.  Natural and suffixed identifiers need no telling apart for that: a
suffixed one is tested against the same bindings as a natural one.
-/

inductive Model.HasSymbol (model : Model) : SymbolKey → Prop where
  | type {decl : TypeDecl} : decl ∈ model.decls → HasSymbol model (.type decl.name)
  | member {enum : EnumType} {case : EnumCase} : enum ∈ model.enums → case ∈ enum.cases →
      HasSymbol model (.member enum.name case.name)

def EnumType.caseKeys (enum : EnumType) : List SymbolKey :=
  enum.cases.map fun case => .member enum.name case.name

def TypeDecl.key (decl : TypeDecl) : SymbolKey := .type decl.name

theorem holder?_eq_none_iff {bindings : List Binding} {identifier : String} :
    holder? bindings identifier = none ↔ identifier ∉ bindings.map Binding.identifier := by
  simp [holder?]

/-- The bindings `after` are those `before`, then bindings of `keys`, each under an
identifier that is free where it is taken. -/
structure Extends (before : List Binding) (keys : List SymbolKey) (after : List Binding) :
    Prop where
  keys_eq : after.map Binding.key = before.map Binding.key ++ keys
  distinct : (before.map Binding.identifier).Nodup → (after.map Binding.identifier).Nodup

namespace Extends

theorem refl (bindings : List Binding) : Extends bindings [] bindings :=
  ⟨(List.append_nil _).symm, id⟩

theorem trans {before middle after : List Binding} {first second : List SymbolKey}
    (left : Extends before first middle) (right : Extends middle second after) :
    Extends before (first ++ second) after where
  keys_eq := by rw [right.keys_eq, left.keys_eq, List.append_assoc]
  distinct := right.distinct ∘ left.distinct

theorem snoc {bindings : List Binding} {key : SymbolKey} {identifier : String}
    (free : holder? bindings identifier = none) :
    Extends bindings [key] (bindings ++ [⟨key, identifier⟩]) where
  keys_eq := by simp
  distinct distinct := by
    have fresh := holder?_eq_none_iff.mp free
    rw [List.map_append, List.map_singleton]
    exact distinct.append (List.nodup_singleton _) (by simpa using fresh)

end Extends

theorem bindTypes_extends {naming : Naming} {taken bindings : List Binding}
    {decls : List TypeDecl} (bound : bindTypes naming taken decls = .ok bindings) :
    Extends taken (decls.map TypeDecl.key) bindings := by
  induction decls generalizing taken with
  | nil => cases bound; exact .refl _
  | cons decl rest ih =>
      simp only [bindTypes] at bound
      cases found : holder? taken (naming.typeName decl.name) with
      | some holder => simp [found] at bound
      | none =>
          simp only [found] at bound
          exact (Extends.snoc found).trans (ih bound)

theorem memberIdentifier_free {naming : Naming} {taken : List Binding} {enum : EnumType}
    {case : EnumCase} {identifier : String}
    (chosen : memberIdentifier naming taken enum case = .ok identifier) :
    holder? taken identifier = none := by
  simp only [memberIdentifier] at chosen
  split at chosen
  · rename_i free
    cases chosen
    exact free
  · split at chosen
    · rename_i free
      cases chosen
      exact free
    · cases chosen

theorem bindCases_extends {naming : Naming} {enum : EnumType} {taken bindings : List Binding}
    {cases : List EnumCase} (bound : bindCases naming enum taken cases = .ok bindings) :
    Extends taken (cases.map fun case => .member enum.name case.name) bindings := by
  induction cases generalizing taken with
  | nil => cases bound; exact .refl _
  | cons case rest ih =>
      simp only [bindCases] at bound
      cases chosen : memberIdentifier naming taken enum case with
      | error clash => simp [chosen] at bound
      | ok identifier =>
          simp only [chosen] at bound
          exact (Extends.snoc (memberIdentifier_free chosen)).trans (ih bound)

theorem bindMembers_extends {naming : Naming} {taken bindings : List Binding}
    {enums : List EnumType} (bound : bindMembers naming taken enums = .ok bindings) :
    Extends taken (enums.flatMap EnumType.caseKeys) bindings := by
  induction enums generalizing taken with
  | nil => cases bound; exact .refl _
  | cons enum rest ih =>
      simp only [bindMembers] at bound
      cases chosen : bindCases naming enum taken enum.cases with
      | error clash => simp [chosen] at bound
      | ok middle =>
          simp only [chosen] at bound
          exact (bindCases_extends chosen).trans (ih bound)

/-- All symbols of a schema, in the order in which they are bound. -/
def Model.symbolKeys (model : Model) : List SymbolKey :=
  model.decls.map TypeDecl.key ++ model.enums.flatMap EnumType.caseKeys

section

variable {naming : Naming} {model : Model} {symbols : Symbols}

theorem resolve_extends (resolved : resolve naming model = .ok symbols) :
    Extends [] model.symbolKeys symbols.bindings := by
  unfold resolve at resolved
  split at resolved
  · rename_i bindings bound
    cases resolved
    obtain ⟨types, boundTypes, boundMembers⟩ := bind_eq_ok_iff.mp bound
    exact (bindTypes_extends boundTypes).trans (bindMembers_extends boundMembers)
  · cases resolved

theorem resolve_keys (resolved : resolve naming model = .ok symbols) :
    symbols.bindings.map Binding.key = model.symbolKeys := by
  simpa using (resolve_extends resolved).keys_eq

theorem resolve_distinct (resolved : resolve naming model = .ok symbols) :
    (symbols.bindings.map Binding.identifier).Nodup :=
  (resolve_extends resolved).distinct List.nodup_nil

end

/-! The symbols of a schema are distinct, because validation keeps the names of types and
the names of the cases of one enum apart. -/

theorem TypeDecl.nodup_keys (model : Model) : (model.decls.map TypeDecl.key).Nodup := by
  have distinct := model.distinctNames.map (f := SymbolKey.type) fun _ _ same => by cases same; rfl
  rw [List.map_map] at distinct
  exact distinct

theorem EnumType.nodup_caseKeys {model : Model} {enum : EnumType} (member : enum ∈ model.enums) :
    enum.caseKeys.Nodup := by
  have distinct := model.distinctCases (Model.mem_enums.mp member)
  have keys := distinct.map (f := SymbolKey.member enum.name) fun _ _ same => by cases same; rfl
  rw [List.map_map] at keys
  exact keys

/-- The symbols that a type brings into a file. -/
def TypeDecl.symbolKeys : TypeDecl → List SymbolKey
  | .enum decl => .type decl.name :: decl.caseKeys
  | .record decl => [.type decl.name]

namespace TypeDecl

variable {model : Model} {decl : TypeDecl} {key : SymbolKey}

theorem mem_symbolKeys (member : key ∈ decl.symbolKeys) :
    key = .type decl.name ∨ ∃ case, key = .member decl.name case := by
  cases decl with
  | enum decl =>
      rcases List.mem_cons.mp member with type | inside
      · exact .inl type
      · obtain ⟨case, _, rfl⟩ := List.mem_map.mp inside
        exact .inr ⟨case.name, rfl⟩
  | record decl => exact .inl (List.mem_singleton.mp member)

theorem nodup_symbolKeys (declared : decl ∈ model.decls) : decl.symbolKeys.Nodup := by
  cases decl with
  | enum decl =>
      have cases := EnumType.nodup_caseKeys (Model.mem_enums.mpr declared)
      refine List.nodup_cons.mpr ⟨fun type => ?_, cases⟩
      obtain ⟨case, _, same⟩ := List.mem_map.mp type
      cases same
  | record decl => exact List.nodup_singleton _

theorem nodup_flatMap_symbolKeys (model : Model) : (model.decls.flatMap symbolKeys).Nodup := by
  refine List.nodup_flatMap.mpr ⟨fun decl declared => nodup_symbolKeys declared, ?_⟩
  refine (List.pairwise_map.mp model.distinctNames).imp fun different key left right => ?_
  rcases mem_symbolKeys left with rfl | ⟨_, rfl⟩
  · rcases mem_symbolKeys right with same | ⟨_, same⟩
    · exact different (SymbolKey.type.inj same)
    · cases same
  · rcases mem_symbolKeys right with same | ⟨_, same⟩
    · cases same
    · exact different (SymbolKey.member.inj same).1

end TypeDecl

namespace Model

variable {model : Model} {key : SymbolKey}

/-- Types are bound before members, but the symbols are those of the types one by one. -/
theorem symbolKeys_perm (model : Model) :
    model.symbolKeys.Perm (model.decls.flatMap TypeDecl.symbolKeys) := by
  rw [symbolKeys, enums]
  induction model.decls with
  | nil => rfl
  | cons decl rest ih =>
      cases decl with
      | enum enum =>
          refine List.Perm.cons _ ?_
          exact List.perm_append_comm_assoc _ enum.caseKeys _ |>.trans (ih.append_left _)
      | record record => exact List.Perm.cons _ ih

theorem nodup_symbolKeys (model : Model) : model.symbolKeys.Nodup :=
  model.symbolKeys_perm.nodup_iff.mpr (TypeDecl.nodup_flatMap_symbolKeys model)

theorem hasSymbol_iff :
    model.HasSymbol key ↔ ∃ decl ∈ model.decls, key ∈ decl.symbolKeys := by
  constructor
  · intro symbol
    cases symbol with
    | @type decl declared =>
        refine ⟨decl, declared, ?_⟩
        cases decl <;> exact List.mem_cons_self
    | @member enum case declared owned =>
        exact ⟨.enum enum, mem_enums.mp declared,
          List.mem_cons_of_mem _ (List.mem_map_of_mem owned)⟩
  · rintro ⟨decl, declared, member⟩
    cases decl with
    | enum enum =>
        rcases List.mem_cons.mp member with rfl | inside
        · exact .type declared
        · obtain ⟨case, owned, rfl⟩ := List.mem_map.mp inside
          exact .member (mem_enums.mpr declared) owned
    | record record =>
        rw [List.mem_singleton.mp member]
        exact .type declared

theorem hasSymbol_of_declares (model : Model) {name : String}
    (declares : model.declares name = true) : model.HasSymbol (.type name) := by
  obtain ⟨decl, declared, rfl⟩ := (model.declares_iff name).mp declares
  exact .type declared

theorem mem_symbolKeys : key ∈ model.symbolKeys ↔ model.HasSymbol key := by
  rw [model.symbolKeys_perm.mem_iff, List.mem_flatMap, hasSymbol_iff]

end Model

namespace Symbols

variable {symbols : Symbols}

theorem mem_of_get? {key : SymbolKey} {identifier : String}
    (found : symbols.get? key = some identifier) : ⟨key, identifier⟩ ∈ symbols.bindings := by
  obtain ⟨binding, lookup, rfl⟩ := Option.map_eq_some_iff.mp found
  have same : binding.key = key := by simpa using List.find?_some lookup
  subst same
  exact List.mem_of_find?_eq_some lookup

theorem get?_of_mem (distinct : (symbols.bindings.map Binding.key).Nodup) {binding : Binding}
    (member : binding ∈ symbols.bindings) : symbols.get? binding.key = some binding.identifier := by
  cases found : symbols.bindings.find? (·.key == binding.key) with
  | none =>
      have absent := List.find?_eq_none.mp found binding member
      simp at absent
  | some other =>
      have same : other.key = binding.key := by simpa using List.find?_some found
      rw [get?, found, List.inj_on_of_nodup_map distinct (List.mem_of_find?_eq_some found) member
        same]
      rfl

theorem get?_eq_some_iff (distinct : (symbols.bindings.map Binding.key).Nodup) {key : SymbolKey}
    {identifier : String} :
    symbols.get? key = some identifier ↔ ⟨key, identifier⟩ ∈ symbols.bindings :=
  ⟨mem_of_get?, fun member => get?_of_mem distinct member⟩

theorem get?_isSome_iff {key : SymbolKey} :
    (symbols.get? key).isSome ↔ key ∈ symbols.bindings.map Binding.key := by
  simp [get?, List.find?_isSome]

theorem get?_injective (distinct : (symbols.bindings.map Binding.identifier).Nodup)
    {left right : SymbolKey} {identifier : String}
    (leftFound : symbols.get? left = some identifier)
    (rightFound : symbols.get? right = some identifier) : left = right := by
  have same := List.inj_on_of_nodup_map distinct (mem_of_get? leftFound)
    (mem_of_get? rightFound) rfl
  exact congrArg Binding.key same

/-- Every symbol of the schema has one binding, nothing else has any, and no two symbols
share an identifier. -/
structure OneToOne (symbols : Symbols) (model : Model) : Prop where
  bound_iff : ∀ key, (symbols.get? key).isSome ↔ model.HasSymbol key
  distinctKeys : (symbols.bindings.map Binding.key).Nodup
  size_eq : symbols.size = model.size + (model.enums.flatMap EnumType.cases).length
  injective : ∀ left right identifier, symbols.get? left = some identifier →
    symbols.get? right = some identifier → left = right

end Symbols

/-- A symbol of the schema has an identifier once its symbols are resolved. -/
theorem resolve_binds {naming : Naming} {model : Model} {symbols : Symbols} {key : SymbolKey}
    (resolved : resolve naming model = .ok symbols) (symbol : model.HasSymbol key) :
    (symbols.get? key).isSome := by
  rw [Symbols.get?_isSome_iff, resolve_keys resolved]
  exact Model.mem_symbolKeys.mpr symbol

/-- Whatever a language calls its types and members, a resolution that succeeds gives all
of them identifiers of their own. -/
theorem resolve_oneToOne {naming : Naming} {model : Model} {symbols : Symbols}
    (resolved : resolve naming model = .ok symbols) : symbols.OneToOne model where
  bound_iff key := by
    rw [Symbols.get?_isSome_iff, resolve_keys resolved, Model.mem_symbolKeys]
  distinctKeys := by
    rw [resolve_keys resolved]
    exact model.nodup_symbolKeys
  size_eq := by
    have length := congrArg List.length (resolve_keys resolved)
    simpa [Symbols.size, Model.symbolKeys, Model.size, EnumType.caseKeys,
      List.length_flatMap] using length
  injective _ _ _ := Symbols.get?_injective (resolve_distinct resolved)

def Naming.verbatim : Naming := ⟨.go, id, fun _ case => case.name⟩

/-- Two enums with a case `X`, and a case that is called like a type. -/
def contested : Model where
  decls :=
    [ .enum ⟨"Color", .integer, [⟨"RED", .integer 0⟩, ⟨"X", .integer 1⟩]⟩,
      .record ⟨"User", []⟩,
      .enum ⟨"Role", .string, [⟨"X", .string "x"⟩, ⟨"Color", .string "c"⟩]⟩ ]
  valid := by decide

def contestedSymbols : Symbols where
  language := .go
  bindings :=
    [ ⟨.type "Color", "Color"⟩, ⟨.type "User", "User"⟩, ⟨.type "Role", "Role"⟩,
      ⟨.member "Color" "RED", "RED"⟩, ⟨.member "Color" "X", "X"⟩,
      ⟨.member "Role" "X", "XRole"⟩, ⟨.member "Role" "Color", "ColorRole"⟩ ]

theorem contested_oneToOne :
    resolve .verbatim contested = .ok contestedSymbols ∧
      contestedSymbols.OneToOne contested := by
  have resolved : resolve .verbatim contested = .ok contestedSymbols := by decide
  exact ⟨resolved, resolve_oneToOne resolved⟩

end WireSchema
