import WireSchema.Proofs.Go.Placement
import WireSchema.Proofs.Symbol.Locality
import WireSchema.Proofs.Text.Marks

namespace WireSchema.Go

/-! Legal names that are refused with a capital.

The names of types and fields are checked after their first character was put into upper case.
No word that Go has taken begins with a capital, so all that can make a legal name illegal is
a combining mark in the upper case of its first letter.
-/

/-- The words that a package cannot declare, or that it would hide by declaring them. -/
def takenWords : List String := "init" :: (keywords ++ predeclared)

theorem takenWords_begin : ∀ word ∈ takenWords,
    (word.toList.head?.any fun first => Text.upper first != [first]) = true := by
  decide +kernel

section

variable {name : String}

theorem capitalize_free (name : String) :
    Text.capitalize name ≠ "init" ∧ Text.capitalize name ∉ keywords ∧
      Text.capitalize name ∉ predeclared := by
  have free : Text.capitalize name ∉ takenWords := by
    intro taken
    obtain ⟨first, begins, changes⟩ := (Option.any_eq_true _ _).mp (takenWords_begin _ taken)
    exact bne_iff_ne.mp changes (Text.upper_of_capitalize_begins begins)
  simpa [takenWords] using free

theorem isIdentifier_capitalize (name : String) :
    isIdentifier (Text.capitalize name) =
      (Text.capitalize name != "_" && Text.isIdentifier [] (Text.capitalize name)) := by
  obtain ⟨_, noKeyword, _⟩ := capitalize_free name
  simp [isIdentifier, noKeyword]

theorem isPackageIdentifier_capitalize (name : String) :
    isPackageIdentifier (Text.capitalize name) = isIdentifier (Text.capitalize name) := by
  obtain ⟨noInit, _, undeclared⟩ := capitalize_free name
  simp [isPackageIdentifier, noInit, undeclared]

/-- A legal name is legal with a capital unless its first letter takes a mark. -/
theorem isIdentifier_capitalize_iff (legal : isIdentifier name = true) :
    isIdentifier (Text.capitalize name) = true ↔ ¬ Text.BeginsMarked name := by
  have identifier := textIdentifier legal
  have different : name ≠ "_" := by
    rintro rfl
    exact absurd legal (by decide)
  rw [isIdentifier_capitalize, Bool.and_eq_true, bne_iff_ne,
    Text.isIdentifier_capitalize_iff identifier]
  constructor
  · exact And.right
  · intro unmarked
    exact ⟨Text.capitalize_ne_underscore identifier unmarked different, unmarked⟩

theorem unmarked_of_accepted (identifier : Text.isIdentifier [] name = true)
    (accepted : isIdentifier (Text.capitalize name) = true) : ¬ Text.BeginsMarked name :=
  (Text.isIdentifier_capitalize_iff identifier).mp (textIdentifier accepted)

/-- What the types and fields of a generated file are called in the schema. -/
theorem generate_accepts {model : Model} {options : GoOptions} {generated : GeneratedFile}
    (success : generate model (.go options) = .ok generated) {decl : TypeDecl}
    (declared : decl ∈ model.decls) :
    isIdentifier (Text.capitalize decl.name) = true ∧
      ∀ record, decl = .record record → ∀ field ∈ record.fields,
        isIdentifier (Text.capitalize field.name) = true := by
  obtain ⟨symbols, declarations, placed, _⟩ := generate_placed success
  obtain ⟨declaration, _, laid⟩ := forall₂_exists_left placed.laid declared
  constructor
  · have symbol : symbols.type? decl.name = some (Text.capitalize decl.name) :=
      resolve_type placed.resolved declared
    have accepted := laid.isPackageIdentifier
    rw [Option.some.inj (laid.symbol.symm.trans symbol)] at accepted
    exact isIdentifier_of_package accepted
  · intro record same field member
    subst same
    cases laid with
    | struct _ _ related _ =>
        obtain ⟨laidField, _, lays⟩ := forall₂_exists_left related member
        exact lays.identifier_eq ▸ lays.isIdentifier

/-- What the capital does to a name.  As far as the name goes, a field or a type of a legal name
is refused exactly if the name begins with a letter that takes a mark. -/
structure Capitalized (name : String) : Prop where
  identifier_iff : Text.isIdentifier [] (Text.capitalize name) = true ↔ ¬ Text.BeginsMarked name
  field_iff : isIdentifier name = true →
    (isIdentifier (Text.capitalize name) = true ↔ ¬ Text.BeginsMarked name)
  type_iff : isIdentifier name = true →
    (isPackageIdentifier (naming.typeName name) = true ↔ ¬ Text.BeginsMarked name)
  not_generated : Text.BeginsMarked name → ∀ (model : Model) (options : GoOptions)
    (generated : GeneratedFile), generate model (.go options) = .ok generated →
    ∀ decl ∈ model.decls, decl.name ≠ name ∧
      ∀ record, decl = .record record → ∀ field ∈ record.fields, field.name ≠ name

/-- An identifier stays one with a capital, except if the capital of its first letter needs a
combining mark. -/
theorem capitalized_of_identifier (identifier : Text.isIdentifier [] name = true) :
    Capitalized name where
  identifier_iff := Text.isIdentifier_capitalize_iff identifier
  field_iff := isIdentifier_capitalize_iff
  type_iff legal := by
    rw [naming, isPackageIdentifier_capitalize]
    exact isIdentifier_capitalize_iff legal
  not_generated marked model options generated success decl declared := by
    obtain ⟨type, fields⟩ := generate_accepts success declared
    constructor
    · rintro rfl
      exact unmarked_of_accepted identifier type marked
    · rintro record same field member rfl
      exact unmarked_of_accepted identifier (fields record same field member) marked

end

theorem iota_capitalized :
    Text.isIdentifier [] "ΐota" = true ∧ Text.BeginsMarked "ΐota" ∧ Capitalized "ΐota" := by
  have identifier : Text.isIdentifier [] "ΐota" = true := by decide +kernel
  exact ⟨identifier, by decide, capitalized_of_identifier identifier⟩

/-- A record with a field of a legal name. -/
def reading : RecordType := ⟨"Reading", [⟨"ΐota", .primitive .integer, "ΐota"⟩]⟩

def readings : Model where
  decls := [.record reading]
  valid := by decide

/-- The name is legal, and is reported as a name that is not. -/
theorem readings_refused :
    isPackageIdentifier "ΐota" = true ∧
      Text.isIdentifier [] "ΐota" = true ∧ Text.isIdentifier [] (Text.capitalize "ΐota") = false ∧
      generate readings (.go {}) = .error (.render ⟨.go, .invalidIdentifier "Reading" "ΐota"⟩) := by
  have resolved : resolve naming readings = .ok ⟨.go, [⟨.type "Reading", "Reading"⟩]⟩ := by
    decide +kernel
  have refused : layFile readings ⟨.go, [⟨.type "Reading", "Reading"⟩]⟩ "gen" =
      .error (.invalidIdentifier "Reading" "ΐota") := by
    decide +kernel
  refine ⟨by decide +kernel, by decide +kernel, by decide +kernel, ?_⟩
  rw [generate_go, resolved]
  simp only [refused]

end WireSchema.Go
