import WireSchema.Proofs.Acceptance
import WireSchema.Proofs.Go.Scope
import WireSchema.Proofs.Schema.Permuted

namespace WireSchema

/-! What a Go file takes from the identifiers it is given.

The identifiers come from outside and may have been chosen for a larger schema.  A type line,
a constant and a reference each look theirs up for themselves.  They ask about symbols of the
schema only, and between them they ask about every one, since a type or a case is declared
whether or not anything refers to it.
-/

/-- Both give the same identifier to each symbol that is covered, or both give it none. -/
def Symbols.AgreeWhere (covered : SymbolKey → Prop) (left right : Symbols) : Prop :=
  ∀ key, covered key → left.get? key = right.get? key

namespace Go

section

variable {left right : Model} {symbols others : Symbols} {covered : SymbolKey → Prop}
  (agree : symbols.AgreeWhere covered others)
include agree

theorem layConstants_agree {enum : String} {cases : List EnumCase}
    (own : ∀ case ∈ cases, covered (.member enum case.name)) :
    layConstants symbols enum cases = layConstants others enum cases := by
  induction cases with
  | nil => rfl
  | cons case rest ih =>
      rw [List.forall_mem_cons] at own
      rw [layConstants, layConstants, Symbols.member?, Symbols.member?, agree _ own.1, ih own.2]

variable (alike : left.LooksLike right)
  (types : ∀ name, left.declares name = true → covered (.type name))
include alike types

theorem layType_agree (place : FieldPlace) (type : TypeRef) :
    layType left symbols place type = layType right others place type := by
  induction type using TypeRef.outsideUnions with
  | primitive scalar => rfl
  | named name =>
      rw [layType, layType, ← alike.declares_eq]
      by_cases declared : left.declares name = true
      · rw [if_pos declared, if_pos declared, Symbols.type?, Symbols.type?,
          agree _ (types name declared)]
      · rw [if_neg declared, if_neg declared]
  | list element ih => rw [layType, layType, ih]
  | nullable inner ih => rw [layType, layType, ih]
  | union members => rfl

theorem fieldType_agree (place : FieldPlace) (type : TypeRef) :
    fieldType left symbols place type = fieldType right others place type := by
  rw [fieldType, fieldType, layType_agree agree alike types]
  simp only [alike.embeds_eq]

theorem layFields_agree (record : String) (earlier : List String) (fields : List Field) :
    layFields left symbols record earlier fields =
      layFields right others record earlier fields := by
  induction fields generalizing earlier with
  | nil => rfl
  | cons field rest ih => simp only [layFields, fieldType_agree agree alike types, ih]

theorem layDecl_agree {decl : TypeDecl} (own : ∀ key ∈ decl.symbolKeys, covered key) :
    layDecl left symbols decl = layDecl right others decl := by
  cases decl with
  | enum enum =>
      obtain ⟨named, members⟩ := List.forall_mem_cons.mp own
      have constants := layConstants_agree agree (List.forall_mem_map.mp members)
      rw [layDecl, layDecl, layEnum, layEnum, Symbols.type?, Symbols.type?, agree _ named,
        constants]
  | record record =>
      rw [layDecl, layDecl, layRecord, layRecord, Symbols.type?, Symbols.type?,
        agree _ (own _ List.mem_cons_self), layFields_agree agree alike types]

end

theorem layFile_agree {model : Model} {symbols others : Symbols}
    (agree : symbols.AgreeWhere model.HasSymbol others) (package : String) :
    layFile model symbols package = layFile model others package := by
  have declarations : model.decls.mapM (layDecl model symbols) =
      model.decls.mapM (layDecl model others) := by
    apply mapM_congr
    intro decl declared
    apply layDecl_agree agree ⟨fun _ => rfl, fun _ _ => rfl⟩
    · exact fun name declares => model.hasSymbol_of_declares declares
    intro key own
    exact Model.hasSymbol_iff.mpr ⟨decl, declared, own⟩
  rw [layFile, layFile, declarations]

end Go

theorem goText_eq_ok_iff {model : Model} {symbols : Symbols} {options : GoOptions}
    {text : String} :
    goText model symbols options = .ok text ↔
      ∃ file, Go.layFile model symbols options.package = .ok file ∧ file.text = text := by
  rw [goText]
  cases Go.layFile model symbols options.package <;> simp

theorem goText_declares {model : Model} {symbols : Symbols} {options : GoOptions} {text : String}
    (printed : goText model symbols options = .ok text) :
    List.Forall₂ (Go.Declares symbols) (model.decls.flatMap TypeDecl.symbolKeys)
      ((Go.outline text).flatMap Go.Block.declared) := by
  obtain ⟨file, laid, rfl⟩ := goText_eq_ok_iff.mp printed
  obtain ⟨_, _, related⟩ := Go.layFile_eq_ok_iff.mp laid
  rw [Go.outline_text (Go.layFile_printable laid)]
  exact Go.declares_of_laid related

theorem goText_binds {model : Model} {symbols : Symbols} {options : GoOptions} {text : String}
    (printed : goText model symbols options = .ok text) {key : SymbolKey}
    (symbol : model.HasSymbol key) : ∃ identifier, Go.Declares symbols key identifier := by
  have listed := List.mem_flatMap.mpr (Model.hasSymbol_iff.mp symbol)
  obtain ⟨identifier, _, declares⟩ := forall₂_exists_left (goText_declares printed) listed
  exact ⟨identifier, declares⟩

/-- Identifiers have one part in whether there is a file: each symbol of the schema needs one
that a package can declare. -/
theorem goText_exists_iff {model : Model} {symbols : Symbols} {options : GoOptions} :
    (∃ text, goText model symbols options = .ok text) ↔
      Go.isIdentifier options.package = true ∧
        (∀ key, model.HasSymbol key → ∃ identifier, Go.Declares symbols key identifier) ∧
          ∀ record ∈ model.records, Go.Expressible record := by
  have laid (binds : ∀ key, model.HasSymbol key →
      ∃ identifier, Go.Declares symbols key identifier) :=
    @Go.layFile_exists_iff_declares model symbols options.package fun name declares => by
      obtain ⟨identifier, found, _⟩ := binds _ (model.hasSymbol_of_declares declares)
      exact Option.isSome_iff_exists.mpr ⟨identifier, found⟩
  constructor
  · intro success
    obtain ⟨text, printed⟩ := success
    have binds (key : SymbolKey) (symbol : model.HasSymbol key) := goText_binds printed symbol
    obtain ⟨file, found, _⟩ := goText_eq_ok_iff.mp printed
    obtain ⟨package, _, records⟩ := (laid binds).mp ⟨file, found⟩
    exact ⟨package, binds, records⟩
  · intro rules
    obtain ⟨package, binds, records⟩ := rules
    have each : ∀ decl ∈ model.decls, ∀ key ∈ decl.symbolKeys,
        ∃ identifier, Go.Declares symbols key identifier :=
      fun decl declared key own => binds key (Model.hasSymbol_iff.mpr ⟨decl, declared, own⟩)
    obtain ⟨file, found⟩ := (laid binds).mpr ⟨package, each, records⟩
    exact ⟨file.text, goText_eq_ok_iff.mpr ⟨file, found, rfl⟩⟩

/-- A Go file is the same, or fails the same, under identifiers that differ in symbols of other
schemas only.  Where it does not fail, no symbol of its own is without an identifier, and these
are the identifiers that the text declares.  It fails for no other lack of identifiers. -/
theorem goText_ownSymbols (model : Model) (options : GoOptions) :
    (∀ left right : Symbols, left.AgreeWhere model.HasSymbol right →
      goText model left options = goText model right options) ∧
    (∀ symbols text, goText model symbols options = .ok text →
      (∀ key, model.HasSymbol key → (symbols.get? key).isSome) ∧
        List.Forall₂ (Go.Declares symbols) (model.decls.flatMap TypeDecl.symbolKeys)
          ((Go.outline text).flatMap Go.Block.declared)) ∧
    ∀ symbols, (∃ text, goText model symbols options = .ok text) ↔
      Go.isIdentifier options.package = true ∧
        (∀ key, model.HasSymbol key → ∃ identifier, Go.Declares symbols key identifier) ∧
          ∀ record ∈ model.records, Go.Expressible record := by
  refine ⟨?_, fun symbols text printed => ⟨?_, goText_declares printed⟩,
    fun symbols => goText_exists_iff⟩
  · intro left right agree
    rw [goText, goText, Go.layFile_agree agree]
  · intro key symbol
    obtain ⟨identifier, found, _⟩ := goText_binds printed symbol
    exact Option.isSome_iff_exists.mpr ⟨identifier, found⟩

/-- A type without cases, one without fields, and references to both. -/
def fleet : Model where
  decls :=
    [ .enum ⟨"mode", .integer, []⟩,
      .record ⟨"ship",
        [ ⟨"decks", .list (.named "deck"), "decks"⟩,
          ⟨"mode", .nullable (.named "mode"), "mode"⟩,
          ⟨"flags", .list (.nullable (.named "flag")), "flags"⟩ ]⟩,
      .record ⟨"deck", []⟩,
      .enum ⟨"flag", .string, [⟨"Red", .string "red"⟩]⟩ ]
  valid := by decide

/-- The fleet among other types, one of them with a case that is called like a case of the
fleet. -/
def navy : Model where
  decls := .record ⟨"base", []⟩ :: fleet.decls ++ [.enum ⟨"port", .integer, [⟨"Red", .integer 0⟩]⟩]
  valid := by decide

def fleetSymbols : Symbols where
  language := .go
  bindings :=
    [ ⟨.type "mode", "Mode"⟩, ⟨.type "ship", "Ship"⟩, ⟨.type "deck", "Deck"⟩,
      ⟨.type "flag", "Flag"⟩, ⟨.member "flag" "Red", "Red"⟩ ]

def navySymbols : Symbols where
  language := .go
  bindings :=
    [ ⟨.type "base", "Base"⟩, ⟨.type "mode", "Mode"⟩, ⟨.type "ship", "Ship"⟩,
      ⟨.type "deck", "Deck"⟩, ⟨.type "flag", "Flag"⟩, ⟨.type "port", "Port"⟩,
      ⟨.member "flag" "Red", "Red"⟩, ⟨.member "port" "Red", "RedPort"⟩ ]

def fleetFile : Go.File where
  package := "gen"
  declarations :=
    [ .enum "Mode" .integer [],
      .struct "Ship"
        [ ⟨"Decks", .slice (.declared "Deck"), "decks"⟩,
          ⟨"Mode", .pointer (.declared "Mode"), "mode"⟩,
          ⟨"Flags", .slice (.pointer (.declared "Flag")), "flags"⟩ ],
      .struct "Deck" [],
      .enum "Flag" .string [⟨"Red", .string "red"⟩] ]

example : goText fleet { navySymbols with bindings := navySymbols.bindings.drop 2 } {} =
    .error ⟨.go, .missingSymbol "mode" "mode"⟩ := by
  decide +kernel

theorem fleet_ownSymbols :
    resolve Go.naming fleet = .ok fleetSymbols ∧ resolve Go.naming navy = .ok navySymbols ∧
      fleetSymbols.AgreeWhere fleet.HasSymbol navySymbols ∧
      goText fleet fleetSymbols {} = goText fleet navySymbols {} ∧
      goText fleet navySymbols {} = .ok fleetFile.text ∧
      (∀ key, fleet.HasSymbol key → (navySymbols.get? key).isSome) ∧
      List.Forall₂ (Go.Declares navySymbols) (fleet.decls.flatMap TypeDecl.symbolKeys)
        ((Go.outline fleetFile.text).flatMap Go.Block.declared) := by
  have resolved : resolve Go.naming fleet = .ok fleetSymbols := by decide +kernel
  have resolvedNavy : resolve Go.naming navy = .ok navySymbols := by decide +kernel
  have same : ∀ key ∈ fleet.symbolKeys, fleetSymbols.get? key = navySymbols.get? key := by decide
  have agree : fleetSymbols.AgreeWhere fleet.HasSymbol navySymbols := by
    intro key symbol
    exact same key (Model.mem_symbolKeys.mpr symbol)
  have laid : Go.layFile fleet navySymbols "gen" = .ok fleetFile := by decide +kernel
  have printed : goText fleet navySymbols {} = .ok fleetFile.text :=
    goText_eq_ok_iff.mpr ⟨fleetFile, laid, rfl⟩
  obtain ⟨alike, own, _⟩ := goText_ownSymbols fleet {}
  obtain ⟨bound, declares⟩ := own navySymbols _ printed
  exact ⟨resolved, resolvedNavy, agree, alike _ _ agree, printed, bound, declares⟩

end WireSchema
