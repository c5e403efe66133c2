import WireSchema.Proofs.Go.Placement
import WireSchema.Proofs.TypeScript.Layout

namespace WireSchema

/-! What generating a file can fail with.

Some faults report that the parts of a generation do not fit together: a reference without
a target, a symbol without an identifier, a schema that is not well formed, a flat scope
that nothing was resolved for.  A validated schema leads to none of them.  What is left is
what a schema can really hold that a language cannot say.
-/

theorem resolve_fault_language {naming : Naming} {model : Model} {fault : ResolutionFault}
    (failed : resolve naming model = .error fault) : fault.language = naming.language := by
  unfold resolve at failed
  split at failed
  · cases failed
  · cases failed
    rfl

namespace Go

/-- What keeps a model with resolved symbols from being printed in Go. -/
inductive Refusal : RenderCause → Prop where
  | invalidIdentifier (owner name : String) : Refusal (.invalidIdentifier owner name)
  | duplicateMember (owner name : String) : Refusal (.duplicateMember owner name)
  | unionField (owner field : String) : Refusal (.unsupported owner (.unionField field))
  | tagCharacter (owner key : String) (c : Char) :
      Refusal (.unsupported owner (.tagCharacter key c))

section

variable {model : Model} {symbols : Symbols}

theorem declarable_refusal {owner member : String} {found : Option String}
    (bound : found.isSome) : FaultsAre Refusal (declarable owner member found) := by
  cases found with
  | none => cases bound
  | some identifier =>
      exact .ite (fun _ => .ok identifier) fun _ => .error (.invalidIdentifier owner identifier)

theorem layConstants_refusal {enum : String} {cases : List EnumCase}
    (bound : ∀ case ∈ cases, (symbols.member? enum case.name).isSome) :
    FaultsAre Refusal (layConstants symbols enum cases) := by
  induction cases with
  | nil => exact .ok []
  | cons case rest ih =>
      rw [List.forall_mem_cons] at bound
      apply FaultsAre.bind (declarable_refusal bound.1)
      intro identifier
      apply FaultsAre.bind (ih bound.2)
      intro constants
      exact .ok _

theorem layType_refusal {place : FieldPlace} {type : TypeRef}
    (known : ∀ name ∈ type.names, model.declares name = true ∧ (symbols.type? name).isSome) :
    FaultsAre Refusal (layType model symbols place type) := by
  induction type using TypeRef.outsideUnions with
  | primitive scalar => exact .ok _
  | named name =>
      -- The two internal faults of a type are those of a name, and both are excluded here.
      obtain ⟨declares, bound⟩ := known name (List.mem_singleton.mpr rfl)
      obtain ⟨identifier, found⟩ := Option.isSome_iff_exists.mp bound
      exact .of_succeeds ⟨_, layType_named_eq_ok_iff.mpr ⟨declares, identifier, found, rfl⟩⟩
  | list element ih =>
      apply FaultsAre.bind (ih known)
      intro inner
      exact .ok _
  | nullable inner ih =>
      apply FaultsAre.bind (ih known)
      intro bare
      exact .ok _
  | union members => exact .error (.unionField place.owner place.field)

theorem fieldType_refusal {place : FieldPlace} {type : TypeRef}
    (known : ∀ name ∈ type.names, model.declares name = true ∧ (symbols.type? name).isSome) :
    FaultsAre Refusal (fieldType model symbols place type) := by
  apply FaultsAre.bind (layType_refusal known)
  intro bare
  split
  · exact .ok _
  · exact .ok _

theorem taggable_refusal {owner key : String} : FaultsAre Refusal (taggable owner key) := by
  unfold taggable
  split
  · exact .error (.tagCharacter owner key _)
  · exact .ok key

theorem layFields_refusal {record : String} {earlier : List String} {fields : List Field}
    (known : ∀ field ∈ fields, ∀ name ∈ field.type.names,
      model.declares name = true ∧ (symbols.type? name).isSome) :
    FaultsAre Refusal (layFields model symbols record earlier fields) := by
  induction fields generalizing earlier with
  | nil => exact .ok []
  | cons field rest ih =>
      rw [List.forall_mem_cons] at known
      apply FaultsAre.ite
      · intro unspellable
        exact .error (.invalidIdentifier record field.name)
      · intro spelled
        apply FaultsAre.ite
        · intro repeated
          exact .error (.duplicateMember record _)
        · intro fresh
          apply FaultsAre.bind (fieldType_refusal known.1)
          intro type
          apply FaultsAre.bind taggable_refusal
          intro key
          apply FaultsAre.bind (ih known.2)
          intro fields
          exact .ok _

theorem layDecl_refusal {decl : TypeDecl} (resolved : resolve naming model = .ok symbols)
    (declared : decl ∈ model.decls) : FaultsAre Refusal (layDecl model symbols decl) := by
  have bound : (symbols.type? decl.name).isSome := resolve_binds resolved (.type declared)
  cases decl with
  | enum enum =>
      apply FaultsAre.bind (declarable_refusal bound)
      intro identifier
      have constants : FaultsAre Refusal (layConstants symbols enum.name enum.cases) := by
        apply layConstants_refusal
        intro case member
        exact resolve_binds resolved (.member (Model.mem_enums.mpr declared) member)
      apply FaultsAre.bind constants
      intro constants
      exact .ok _
  | record record =>
      apply FaultsAre.bind (declarable_refusal bound)
      intro identifier
      have fields : FaultsAre Refusal (layFields model symbols record.name [] record.fields) := by
        apply layFields_refusal
        intro field member name referred
        have declares := model.declares_of_mem_names declared member referred
        exact ⟨declares, resolve_binds resolved (model.hasSymbol_of_declares declares)⟩
      apply FaultsAre.bind fields
      intro fields
      exact .ok _

theorem layFile_refusal {package : String} (resolved : resolve naming model = .ok symbols) :
    FaultsAre Refusal (layFile model symbols package) := by
  apply FaultsAre.ite
  · intro unspellable
    exact .error (.invalidIdentifier "<package>" package)
  · intro spelled
    apply FaultsAre.bind (.mapM fun decl declared => layDecl_refusal resolved declared)
    intro declarations
    exact .ok _

end

end Go

namespace TypeScript

/-- What keeps a model from being printed in TypeScript. -/
inductive Refusal : RenderCause → Prop where
  | invalidIdentifier (owner name : String) : Refusal (.invalidIdentifier owner name)

section

variable {model : Model}

theorem declarable_refusal {name : String} : FaultsAre Refusal (declarable name) :=
  .ite (fun _ => .ok name) fun _ => .error (.invalidIdentifier name name)

theorem layMembers_refusal {enum : String} {cases : List EnumCase} :
    FaultsAre Refusal (layMembers enum cases) := by
  induction cases with
  | nil => exact .ok []
  | cons case rest ih =>
      apply FaultsAre.ite
      · intro numeric
        exact .error (.invalidIdentifier enum case.name)
      · intro unlike
        apply FaultsAre.bind ih
        intro members
        exact .ok _

theorem layEnum_refusal {style : EnumStyle} {enum : EnumType} :
    FaultsAre Refusal (layEnum style enum) := by
  apply FaultsAre.bind declarable_refusal
  intro name
  cases style with
  | enum =>
      apply FaultsAre.bind layMembers_refusal
      intro members
      exact .ok _
  | unionType => exact .ok _

/-- All types of a declared record can be said, because all names in them are declared. -/
theorem layRecord_refusal {record : RecordType} (declared : .record record ∈ model.decls) :
    FaultsAre Refusal (layRecord model record) := by
  have typed : ∀ field ∈ record.fields, ∃ property,
      LaidProperty model record.name field property := by
    intro field member
    obtain ⟨type, typed⟩ := fieldType_exists_iff.mpr fun name referred =>
      model.declares_of_mem_names declared member referred
    exact ⟨⟨field.key, type⟩, rfl, typed⟩
  obtain ⟨properties, related⟩ := forall₂_exists_iff.mpr typed
  have laid : FaultsAre Refusal (layProperties model record.name record.fields) :=
    .of_succeeds ⟨properties, layProperties_eq_ok_iff.mpr related⟩
  apply FaultsAre.bind declarable_refusal
  intro name
  apply FaultsAre.bind laid
  intro properties
  exact .ok _

theorem layFile_refusal {style : EnumStyle} : FaultsAre Refusal (layFile model style) := by
  have each : ∀ decl ∈ model.decls, FaultsAre Refusal (layDecl model style decl) := by
    intro decl declared
    cases decl with
    | enum enum => exact layEnum_refusal
    | record record => exact layRecord_refusal declared
  apply FaultsAre.bind (.mapM each)
  intro declarations
  exact .ok _

end

end TypeScript

/-- What keeps a model from having a file, for each target. -/
inductive Refusal : Target → GenerationFault → Prop where
  | resolution {options : GoOptions} (clash : Clash) :
      Refusal (.go options) (.resolution ⟨.go, clash⟩)
  | go {options : GoOptions} {cause : RenderCause} :
      Go.Refusal cause → Refusal (.go options) (.render ⟨.go, cause⟩)
  | typescript {options : TypeScriptOptions} {cause : RenderCause} :
      TypeScript.Refusal cause → Refusal (.typescript options) (.render ⟨.typescript, cause⟩)

theorem Refusal.language {target : Target} {fault : GenerationFault}
    (refusal : Refusal target fault) : fault.language? = some target.language := by
  cases refusal with
  | resolution clash => rfl
  | go cause => rfl
  | typescript cause => rfl

theorem generate_go_refusal (model : Model) (options : GoOptions) :
    FaultsAre (Refusal (.go options)) (generate model (.go options)) := by
  rw [generate_go]
  cases resolved : resolve Go.naming model with
  | error fault =>
      obtain ⟨language, clash⟩ := fault
      have same : language = Language.go := resolve_fault_language resolved
      subst same
      exact .error (.resolution clash)
  | ok symbols =>
      dsimp only
      cases laid : Go.layFile model symbols options.package with
      | error cause => exact .error (.go (Go.layFile_refusal resolved cause laid))
      | ok file => exact .ok _

theorem generate_typeScript_refusal (model : Model) (options : TypeScriptOptions) :
    FaultsAre (Refusal (.typescript options)) (generate model (.typescript options)) := by
  rw [generate_typeScript]
  cases laid : TypeScript.layFile model options.enumStyle with
  | error cause => exact .error (.typescript (TypeScript.layFile_refusal cause laid))
  | ok file => exact .ok _

/-- A flat scope is never left without symbols: resolving gives them or fails. -/
theorem symbolsFor_flat {model : Model} {target : Target} (flat : target.scoping = .flat) :
    symbolsFor model target ≠ .ok none := by
  rw [symbolsFor, flat]
  cases resolve Go.naming model with
  | error fault =>
      intro same
      cases same
  | ok symbols =>
      intro same
      cases same

/-- A model for which generating fails is refused for what its schema says or for how two of
its symbols are called, in the language of the target.  No internal fault occurs. -/
theorem generate_fault_isRefusal {model : Model} {target : Target} {fault : GenerationFault}
    (failed : generate model target = .error fault) :
    fault.language? = some target.language ∧ Refusal target fault ∧
      (target.scoping = .flat → symbolsFor model target ≠ .ok none) := by
  have refusal : Refusal target fault := by
    cases target with
    | go options => exact generate_go_refusal model options fault failed
    | typescript options => exact generate_typeScript_refusal model options fault failed
  exact ⟨refusal.language, refusal, symbolsFor_flat⟩

/-- A record that leads back to itself, with a union of a declared type inside a list. -/
def forked : Model where
  decls :=
    [ .record ⟨"node",
        [ ⟨"next", .nullable (.named "node"), "next"⟩,
          ⟨"label", .list (.union [.named "kind", .primitive .integer]), "label"⟩ ]⟩,
      .enum ⟨"kind", .string, [⟨"Leaf", .string "leaf"⟩, ⟨"Node", .string "node"⟩]⟩ ]
  valid := by decide

def forkedSymbols : Symbols where
  language := .go
  bindings :=
    [ ⟨.type "node", "Node"⟩, ⟨.type "kind", "Kind"⟩,
      ⟨.member "kind" "Leaf", "Leaf"⟩, ⟨.member "kind" "Node", "NodeKind"⟩ ]

def forkedFault : GenerationFault :=
  .render ⟨.go, .unsupported "node" (.unionField "label")⟩

theorem forked_fault_isRefusal :
    generate forked (.go {}) = .error forkedFault ∧
      forkedFault.language? = some .go ∧ Refusal (.go {}) forkedFault ∧
        (Target.scoping (.go {}) = .flat → symbolsFor forked (.go {}) ≠ .ok none) := by
  have resolved : resolve Go.naming forked = .ok forkedSymbols := by decide +kernel
  have refused : Go.layFile forked forkedSymbols "gen" =
      .error (.unsupported "node" (.unionField "label")) := by decide +kernel
  have failed : generate forked (.go {}) = .error forkedFault := by
    rw [generate_go, resolved]
    simp only [refused, forkedFault]
  exact ⟨failed, generate_fault_isRefusal failed⟩

end WireSchema
