import WireSchema.Proofs.Go.Placement
import WireSchema.Proofs.TypeScript.Layout

namespace WireSchema

/-! Which models have a file in a language.

The checks are spread over the parts of a layout, and the first that fails ends it.  Here
they stand side by side: a model that keeps all of these rules has a file, and a model that
breaks one has none.
-/

namespace Go

structure Expressible (record : RecordType) : Prop where
  identifiers : ∀ field ∈ record.fields, isIdentifier (Text.capitalize field.name) = true
  distinct : (record.fields.map fun field => Text.capitalize field.name).Nodup
  unionFree : ∀ field ∈ record.fields, ¬ field.type.ContainsUnion
  keys : ∀ field ∈ record.fields, ∀ c ∈ field.key.toList,
    c ∉ ['\x60', '"', ',', '\\'] ∧ Text.isControl c = false

structure Accepts (model : Model) (options : GoOptions) : Prop where
  package : isIdentifier options.package = true
  symbols : ∃ symbols, resolve naming model = .ok symbols ∧
    ∀ binding ∈ symbols.bindings, isPackageIdentifier binding.identifier = true
  records : ∀ record ∈ model.records, Expressible record

theorem breaksTag_eq_false_iff {c : Char} :
    breaksTag c = false ↔ c ∉ ['\x60', '"', ',', '\\'] ∧ Text.isControl c = false := by
  simp [breaksTag, and_assoc]

section

variable {model : Model} {symbols : Symbols}

theorem layConstants_exists_iff {enum : EnumType} :
    (∃ constants, List.Forall₂ (LaidConstant symbols enum.name) enum.cases constants) ↔
      ∀ key ∈ enum.caseKeys, ∃ identifier, Declares symbols key identifier := by
  rw [forall₂_exists_iff, EnumType.caseKeys, List.forall_mem_map]
  refine forall₂_congr fun case _ => ?_
  constructor
  · rintro ⟨constant, symbol, accepted, _⟩
    exact ⟨constant.identifier, symbol, accepted⟩
  · rintro ⟨identifier, symbol, accepted⟩
    exact ⟨⟨identifier, case.value⟩, symbol, accepted, rfl⟩

theorem laidField_exists_iff {record : String} {field : Field}
    (known : ∀ name ∈ field.type.names,
      model.declares name = true ∧ (symbols.type? name).isSome) :
    (∃ laid, LaidField model symbols record field laid) ↔
      isIdentifier (Text.capitalize field.name) = true ∧ ¬ field.type.ContainsUnion ∧
        ∀ c ∈ field.key.toList, c ∉ ['\x60', '"', ',', '\\'] ∧ Text.isControl c = false := by
  simp only [← breaksTag_eq_false_iff]
  constructor
  · rintro ⟨laid, identifier, accepted, typed, _, carried⟩
    exact ⟨identifier ▸ accepted, (fieldType_exists_iff.mp ⟨_, typed⟩).1, carried⟩
  · rintro ⟨accepted, unionFree, carried⟩
    obtain ⟨type, typed⟩ := fieldType_exists_iff.mpr ⟨unionFree, known⟩
    exact ⟨⟨Text.capitalize field.name, type, field.key⟩, rfl, accepted, typed, rfl, carried⟩

theorem laidFields_exists_iff {record : RecordType} {owner : String}
    (known : ∀ field ∈ record.fields, ∀ name ∈ field.type.names,
      model.declares name = true ∧ (symbols.type? name).isSome) :
    ((∃ fields, List.Forall₂ (LaidField model symbols owner) record.fields fields) ∧
      (exported record.fields).Nodup) ↔ Expressible record := by
  have each : (∀ field ∈ record.fields, ∃ laid, LaidField model symbols owner field laid) ↔ _ :=
    forall₂_congr fun field member => laidField_exists_iff (known field member)
  rw [forall₂_exists_iff, each]
  constructor
  · rintro ⟨fields, distinct⟩
    exact ⟨fun field member => (fields field member).1, distinct,
      fun field member => (fields field member).2.1, fun field member => (fields field member).2.2⟩
  · rintro ⟨identifiers, distinct, unionFree, keys⟩
    exact ⟨fun field member =>
      ⟨identifiers field member, unionFree field member, keys field member⟩, distinct⟩

theorem laid_exists_iff {decl : TypeDecl} (declared : decl ∈ model.decls)
    (known : ∀ name, model.declares name = true → (symbols.type? name).isSome) :
    (∃ declaration, Laid model symbols decl declaration) ↔
      (∀ key ∈ decl.symbolKeys, ∃ identifier, Declares symbols key identifier) ∧
        ∀ record, decl = .record record → Expressible record := by
  cases decl with
  | enum enum =>
      simp only [TypeDecl.symbolKeys, List.forall_mem_cons, ← layConstants_exists_iff,
        reduceCtorEq, false_implies, implies_true, and_true]
      constructor
      · rintro ⟨_, laid⟩
        cases laid with
        | enum symbol accepted constants => exact ⟨⟨_, symbol, accepted⟩, _, constants⟩
      · rintro ⟨⟨_, symbol, accepted⟩, _, constants⟩
        exact ⟨_, .enum symbol accepted constants⟩
  | record record =>
      have names : ∀ field ∈ record.fields, ∀ name ∈ field.type.names,
          model.declares name = true ∧ (symbols.type? name).isSome := by
        intro field member name referred
        have declares := model.declares_of_mem_names declared member referred
        exact ⟨declares, known name declares⟩
      have fields := @laidFields_exists_iff model symbols record record.name names
      simp only [TypeDecl.symbolKeys, List.forall_mem_singleton, TypeDecl.record.injEq, forall_eq',
        ← fields]
      constructor
      · rintro ⟨_, laid⟩
        cases laid with
        | struct symbol accepted related distinct =>
            exact ⟨⟨_, symbol, accepted⟩, ⟨_, related⟩, distinct⟩
      · rintro ⟨⟨_, symbol, accepted⟩, ⟨_, related⟩, distinct⟩
        exact ⟨_, .struct symbol accepted related distinct⟩

/-- Every type and case gets an identifier, so a bad one is found when all are looked at. -/
theorem declares_all_iff (resolved : resolve naming model = .ok symbols) :
    (∀ decl ∈ model.decls, ∀ key ∈ decl.symbolKeys, ∃ identifier, Declares symbols key identifier) ↔
      ∀ binding ∈ symbols.bindings, isPackageIdentifier binding.identifier = true := by
  have keys := resolve_keys resolved
  have distinct : (symbols.bindings.map Binding.key).Nodup := keys ▸ model.nodup_symbolKeys
  constructor
  · intro declares binding member
    have symbol : binding.key ∈ model.symbolKeys := keys ▸ List.mem_map_of_mem member
    obtain ⟨decl, declared, inside⟩ := Model.hasSymbol_iff.mp (Model.mem_symbolKeys.mp symbol)
    obtain ⟨identifier, found, accepted⟩ := declares decl declared _ inside
    rw [Symbols.get?_of_mem distinct member] at found
    cases found
    exact accepted
  · intro accepted decl declared key inside
    have symbol : key ∈ symbols.bindings.map Binding.key := by
      rw [keys, Model.mem_symbolKeys, Model.hasSymbol_iff]
      exact ⟨decl, declared, inside⟩
    obtain ⟨binding, member, rfl⟩ := List.mem_map.mp symbol
    exact ⟨binding.identifier, Symbols.get?_of_mem distinct member, accepted binding member⟩

theorem layFile_exists_iff_declares {package : String}
    (known : ∀ name, model.declares name = true → (symbols.type? name).isSome) :
    (∃ file, layFile model symbols package = .ok file) ↔
      isIdentifier package = true ∧
        (∀ decl ∈ model.decls, ∀ key ∈ decl.symbolKeys,
          ∃ identifier, Declares symbols key identifier) ∧
          ∀ record ∈ model.records, Expressible record := by
  have declarations : (∃ file, layFile model symbols package = .ok file) ↔
      isIdentifier package = true ∧
        ∀ decl ∈ model.decls, ∃ declaration, Laid model symbols decl declaration := by
    rw [← forall₂_exists_iff]
    constructor
    · rintro ⟨file, laid⟩
      obtain ⟨_, accepted, related⟩ := layFile_eq_ok_iff.mp laid
      exact ⟨accepted, file.declarations, related⟩
    · rintro ⟨accepted, declarations, related⟩
      exact ⟨⟨package, declarations⟩, layFile_eq_ok_iff.mpr ⟨rfl, accepted, related⟩⟩
  rw [declarations]
  refine and_congr_right fun _ => ?_
  constructor
  · intro laid
    have each := fun decl declared => (laid_exists_iff declared known).mp (laid decl declared)
    exact ⟨fun decl declared => (each decl declared).1,
      fun record member => (each _ (Model.mem_records.mp member)).2 record rfl⟩
  · rintro ⟨declares, records⟩ decl declared
    refine (laid_exists_iff declared known).mpr ⟨declares decl declared, ?_⟩
    rintro record rfl
    exact records record (Model.mem_records.mpr declared)

theorem layFile_exists_iff {package : String} (resolved : resolve naming model = .ok symbols) :
    (∃ file, layFile model symbols package = .ok file) ↔
      isIdentifier package = true ∧
        (∀ binding ∈ symbols.bindings, isPackageIdentifier binding.identifier = true) ∧
          ∀ record ∈ model.records, Expressible record := by
  rw [← declares_all_iff resolved]
  apply layFile_exists_iff_declares
  intro name declares
  exact resolve_binds resolved (model.hasSymbol_of_declares declares)

theorem generate_exists_iff {options : GoOptions} :
    (∃ generated, generate model (.go options) = .ok generated) ↔ Accepts model options := by
  constructor
  · rintro ⟨generated, success⟩
    obtain ⟨symbols, file, resolved, laid, _⟩ := generate_go_eq_ok_iff.mp success
    obtain ⟨package, accepted, records⟩ := (layFile_exists_iff resolved).mp ⟨file, laid⟩
    exact ⟨package, ⟨symbols, resolved, accepted⟩, records⟩
  · rintro ⟨package, ⟨symbols, resolved, accepted⟩, records⟩
    obtain ⟨file, laid⟩ := (layFile_exists_iff resolved).mpr ⟨package, accepted, records⟩
    exact ⟨_, generate_go_eq_ok_iff.mpr ⟨symbols, file, resolved, laid, rfl⟩⟩

end

end Go

namespace TypeScript

structure Accepts (model : Model) (options : TypeScriptOptions) : Prop where
  types : ∀ decl ∈ model.decls, isTypeIdentifier decl.name = true
  members : options.enumStyle = .enum → ∀ enum ∈ model.enums, ∀ case ∈ enum.cases,
    isNumericName case.name = false

variable {model : Model}

theorem laid_exists_iff {style : EnumStyle} {decl : TypeDecl} (declared : decl ∈ model.decls) :
    (∃ declaration, Laid model style decl declaration) ↔
      isTypeIdentifier decl.name = true ∧ (style = .enum → ∀ enum, decl = .enum enum →
        ∀ case ∈ enum.cases, isNumericName case.name = false) := by
  cases decl with
  | enum enum =>
      constructor
      · rintro ⟨_, laid⟩
        cases laid with
        | enum accepted unlike =>
            refine ⟨accepted, fun _ other same => ?_⟩
            cases same
            exact unlike
        | literalUnion accepted => exact ⟨accepted, nofun⟩
      · rintro ⟨accepted, unlike⟩
        cases style with
        | enum => exact ⟨_, .enum accepted (unlike rfl enum rfl)⟩
        | unionType => exact ⟨_, .literalUnion accepted⟩
  | record record =>
      constructor
      · rintro ⟨_, laid⟩
        cases laid with
        | object accepted _ => exact ⟨accepted, fun _ _ => nofun⟩
      · rintro ⟨accepted, _⟩
        have typed : ∀ field ∈ record.fields, ∃ property,
            LaidProperty model record.name field property := by
          intro field member
          obtain ⟨type, typed⟩ := fieldType_exists_iff.mpr fun name referred =>
            model.declares_of_mem_names declared member referred
          exact ⟨⟨field.key, type⟩, rfl, typed⟩
        obtain ⟨properties, related⟩ := forall₂_exists_iff.mpr typed
        exact ⟨_, .object accepted related⟩

theorem layFile_exists_iff {style : EnumStyle} :
    (∃ file, layFile model style = .ok file) ↔
      ∀ decl ∈ model.decls, ∃ declaration, Laid model style decl declaration := by
  simp only [layFile_eq_ok_iff, ← forall₂_exists_iff]
  exact ⟨fun ⟨file, related⟩ => ⟨file.declarations, related⟩,
    fun ⟨declarations, related⟩ => ⟨⟨declarations⟩, related⟩⟩

theorem generate_exists_iff {options : TypeScriptOptions} :
    (∃ generated, generate model (.typescript options) = .ok generated) ↔
      Accepts model options := by
  have laidOut : (∃ generated, generate model (.typescript options) = .ok generated) ↔
      ∃ file, layFile model options.enumStyle = .ok file := by
    simp only [generate_typeScript_eq_ok_iff, existsAndEq, and_true]
  rw [laidOut, layFile_exists_iff]
  constructor
  · intro laid
    have each := fun decl declared => (laid_exists_iff declared).mp (laid decl declared)
    exact ⟨fun decl declared => (each decl declared).1,
      fun style enum member => (each _ (Model.mem_enums.mp member)).2 style enum rfl⟩
  · rintro ⟨types, members⟩ decl declared
    refine (laid_exists_iff declared).mpr ⟨types decl declared, fun style enum same => ?_⟩
    subst same
    exact members style enum (Model.mem_enums.mpr declared)

end TypeScript

def Accepts (model : Model) : Target → Prop
  | .go options => Go.Accepts model options
  | .typescript options => TypeScript.Accepts model options

/-- Generating succeeds for exactly the models that keep the rules of the target. -/
theorem generate_succeeds_iff (model : Model) (target : Target) :
    (∃ generated, generate model target = .ok generated) ↔ Accepts model target := by
  cases target with
  | go options => exact Go.generate_exists_iff
  | typescript options => exact TypeScript.generate_exists_iff

end WireSchema
