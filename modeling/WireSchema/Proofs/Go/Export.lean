import WireSchema.Proofs.Generation
import WireSchema.Proofs.Go.Outline
import WireSchema.Proofs.Text.Capital

namespace WireSchema.Go

/-! The fields of a struct that Go exports.

Go exports a name that begins with an upper-case letter, and its JSON package passes over a field
that is not exported.  The first character of every field name is put into upper case, so that a
letter with a capital becomes one.  An identifier may also begin with an underscore or with a
letter that has no capital, and these are written as they are.
-/

def IsExported (identifier : String) : Prop :=
  ∃ first ∈ identifier.toList.head?, Text.isCapital first = true

instance (identifier : String) : Decidable (IsExported identifier) :=
  decidable_of_iff (identifier.toList.head?.any Text.isCapital = true) (Option.any_eq_true _ _)

/-- The row has the name of the field with its first letter in upper case, which exports the
field unless upper-casing finds nothing to change in an underscore or a letter without a capital. -/
structure Shows (field : Field) (row : Row) : Prop where
  identifier_eq : row.identifier = Text.capitalize field.name
  exported_iff : IsExported row.identifier ↔
    ∃ first ∈ field.name.toList.head?, Text.HasCapital first
  exported : ∀ first ∈ field.name.toList.head?,
    first.isAlpha = true ∨ Text.isCapital first = true → IsExported row.identifier
  opens : ∃ first ∈ row.identifier.toList.head?,
    Text.upper first = [first] ∧ (first = '_' ∨ Text.isLetter first = true)

theorem isExported_capitalize_iff {name : String} :
    IsExported (Text.capitalize name) ↔ ∃ first ∈ name.toList.head?, Text.HasCapital first := by
  rw [IsExported, Text.head?_capitalize]
  cases name.toList.head? with
  | none => simp
  | some first => simp [Text.HasCapital]

/-- An identifier opens with a letter or an underscore, and upper-casing has nothing to add to
what it put there itself. -/
theorem capitalize_opens {name : String} (identifier : isIdentifier (Text.capitalize name) = true) :
    ∃ first ∈ (Text.capitalize name).toList.head?,
      Text.upper first = [first] ∧ (first = '_' ∨ Text.isLetter first = true) := by
  obtain ⟨first, rest, spelled, opens, _⟩ := Text.isIdentifier_iff.mp (textIdentifier identifier)
  have begins : first ∈ (Text.capitalize name).toList.head? := by
    rw [spelled]
    rfl
  exact ⟨first, begins, Text.upper_of_capitalize_begins begins,
    (Text.opensIdentifier_iff.mp opens).symm⟩

theorem shows_ofField {model : Model} {symbols : Symbols} {record : String} {field : Field}
    {laid : StructField} (lays : LaidField model symbols record field laid) :
    Shows field (Row.ofField laid) where
  identifier_eq := lays.identifier_eq
  exported_iff := by
    rw [Row.ofField, lays.identifier_eq]
    exact isExported_capitalize_iff
  exported first begins letter := by
    rw [Row.ofField, lays.identifier_eq, isExported_capitalize_iff]
    refine ⟨first, begins, ?_⟩
    cases letter with
    | inl ascii => exact Text.hasCapital_of_isAlpha ascii
    | inr capital => exact Text.hasCapital_of_isCapital capital
  opens := by
    have identifier := lays.isIdentifier
    rw [lays.identifier_eq] at identifier
    rw [Row.ofField, lays.identifier_eq]
    exact capitalize_opens identifier

/-- The struct of a record has one row for each field, and a field is exported exactly when the
first letter of its name has a capital. -/
theorem layRecord_exports {model : Model} {symbols : Symbols} {record : RecordType}
    {declaration : Declaration} (laid : layRecord model symbols record = .ok declaration) :
    ∃ rows : List Row,
      declaration.text = "type " ++ declaration.identifier ++ " struct \x7b\n" ++
        Text.alignRows (rows.map Row.cells) ++ "\x7d\n" ∧
      List.Forall₂ Shows record.fields rows := by
  cases layRecord_eq_ok_iff.mp laid with
  | @struct _ identifier fields _ _ related _ =>
      refine ⟨fields.map Row.ofField, ?_, ?_⟩
      · rw [Declaration.fieldRows_cells]
        rfl
      · rw [List.forall₂_map_right_iff]
        exact related.imp fun _ _ => shows_ofField

/-- A name of ASCII, one with an accent, and two that have no capital to begin with. -/
def visitor : RecordType :=
  ⟨"visitor", [⟨"name", .primitive .string, "name"⟩, ⟨"âge", .primitive .integer, "age"⟩,
    ⟨"_id", .primitive .string, "id"⟩, ⟨"国", .primitive .string, "country"⟩]⟩

def visitors : Model where
  decls := [.record visitor]
  valid := by decide

def visitorStruct : Declaration :=
  .struct "Visitor" [⟨"Name", .builtin .string, "name"⟩, ⟨"Âge", .builtin .int, "age"⟩,
    ⟨"_id", .builtin .string, "id"⟩, ⟨"国", .builtin .string, "country"⟩]

theorem layRecord_visitor :
    layRecord visitors ⟨.go, [⟨.type "visitor", "Visitor"⟩]⟩ visitor = .ok visitorStruct := by
  decide +kernel

theorem visitor_exports :
    ∃ rows : List Row,
      visitorStruct.text = "type " ++ visitorStruct.identifier ++ " struct \x7b\n" ++
        Text.alignRows (rows.map Row.cells) ++ "\x7d\n" ∧
      List.Forall₂ Shows visitor.fields rows :=
  layRecord_exports layRecord_visitor

/-- A file is generated with two fields that are not exported. -/
theorem visitors_hidden :
    ∃ generated block, generate visitors (.go {}) = .ok generated ∧
      block ∈ outline generated.content ∧ block.isStruct = true ∧
      block.rows.map Row.identifier = ["Name", "Âge", "_id", "国"] ∧
      ¬ IsExported "_id" ∧ ¬ IsExported "国" := by
  have resolved : resolve naming visitors = .ok ⟨.go, [⟨.type "visitor", "Visitor"⟩]⟩ := by
    decide +kernel
  have laid : layFile visitors ⟨.go, [⟨.type "visitor", "Visitor"⟩]⟩ "gen" =
      .ok ⟨"gen", [visitorStruct]⟩ := by
    decide +kernel
  have generated : generate visitors (.go {}) =
      .ok ⟨.go {}, "generated.go", File.text ⟨"gen", [visitorStruct]⟩⟩ :=
    generate_go_eq_ok_iff.mpr ⟨_, _, resolved, laid, rfl⟩
  refine ⟨_, visitorStruct.block, generated, ?_, by decide, rfl, by decide +kernel,
    by decide +kernel⟩
  rw [outline_text (layFile_printable laid)]
  exact List.mem_singleton.mpr rfl

end WireSchema.Go
