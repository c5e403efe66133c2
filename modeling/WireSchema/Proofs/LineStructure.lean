import Mathlib.Algebra.GroupWithZero.Nat
import WireSchema.Proofs.Acceptance
import WireSchema.Proofs.TypeScript.Lines

namespace WireSchema

/-! How many lines a file has, and what can stand on them.

The lines of a file are laid out by the kinds of its types and by how many cases and fields
they have.  Names, keys and values only fill these lines.
-/

namespace Go

/-- The lines of a Go declaration: the constants of an enum stand in a block of their own. -/
def lineCount : TypeDecl → Nat
  | .enum enum => if enum.cases.length = 0 then 1 else enum.cases.length + 4
  | .record record => record.fields.length + 2

theorem Laid.length_lines {model : Model} {symbols : Symbols} {decl : TypeDecl}
    {declaration : Declaration} (laid : Laid model symbols decl declaration) :
    declaration.lines.length = lineCount decl := by
  cases laid with
  | @enum enum _ constants _ _ related =>
      rw [lineCount, related.length_eq]
      cases constants with
      | nil => rfl
      | cons constant constants =>
          simp [Declaration.lines, Declaration.laterLines, Declaration.rowLines, Text.rowLines,
            Declaration.rows]
  | struct _ _ related _ =>
      rw [lineCount, related.length_eq]
      simp [Declaration.lines, Declaration.laterLines, Declaration.rowLines, Text.rowLines,
        Declaration.rows]

theorem File.length_lines {model : Model} {symbols : Symbols} {package : String} {file : File}
    (laid : layFile model symbols package = .ok file) :
    file.lines.length = 5 + (model.decls.map fun decl => 1 + lineCount decl).sum := by
  obtain ⟨_, _, related⟩ := layFile_eq_ok_iff.mp laid
  have banner : (Text.lines banner.toList).length = 4 := by decide +kernel
  have each : model.decls.map (fun decl => 1 + lineCount decl) =
      file.declarations.map fun declaration => ([] :: declaration.lines).length := by
    refine forall₂_map_eq_iff.mp (related.imp fun decl declaration laidDecl => ?_)
    rw [List.length_cons, laidDecl.length_lines, Nat.add_comm]
  rw [lines, List.length_append, List.length_append, banner, List.length_flatMap, each]
  rfl

end Go

namespace TypeScript

/-- The lines of a TypeScript declaration: without members it is written on one. -/
def lineCount : EnumStyle → TypeDecl → Nat
  | .enum, .enum enum => if enum.cases.length = 0 then 1 else enum.cases.length + 2
  | .unionType, .enum _ => 1
  | _, .record record => if record.fields.length = 0 then 1 else record.fields.length + 2

theorem Laid.length_lines {model : Model} {style : EnumStyle} {decl : TypeDecl}
    {declaration : Declaration} (laid : Laid model style decl declaration) :
    declaration.lines.length = lineCount style decl := by
  cases laid with
  | @enum enum _ _ =>
      rw [lineCount]
      cases enum.cases with
      | nil => rfl
      | cons case cases => simp [Declaration.lines, Declaration.laterLines]
  | literalUnion _ => simp [Declaration.lines, Declaration.laterLines, lineCount]
  | @object _ record properties _ related =>
      rw [lineCount, related.length_eq]
      cases properties with
      | nil => rfl
      | cons property properties => simp [Declaration.lines, Declaration.laterLines]

theorem File.length_lines {model : Model} {style : EnumStyle} {file : File}
    (laid : layFile model style = .ok file) :
    file.lines.length = 2 + (model.decls.map fun decl => 1 + lineCount style decl).sum := by
  have related := layFile_eq_ok_iff.mp laid
  have each : model.decls.map (fun decl => 1 + lineCount style decl) =
      file.declarations.map fun declaration => ([] :: declaration.lines).length := by
    refine forall₂_map_eq_iff.mp (related.imp fun decl declaration laidDecl => ?_)
    rw [List.length_cons, laidDecl.length_lines, Nat.add_comm]
  rw [lines, List.length_append, List.length_flatMap, each]
  rfl

end TypeScript

namespace Target

/-- The number of lines in the file of a model. -/
def lineCount (model : Model) : Target → Nat
  | .go _ => 5 + (model.decls.map fun decl => 1 + Go.lineCount decl).sum
  | .typescript options =>
      2 + (model.decls.map fun decl => 1 + TypeScript.lineCount options.enumStyle decl).sum

/-- The characters that may stand in a file. -/
def Allows : Target → Char → Prop
  | .go _, c => c = '\n' ∨ c = '\t' ∨ 0x20 ≤ c.toNat ∧ c.toNat ≠ 0x7F
  | .typescript _, c => c = '\n' ∨ Text.isControl c = false ∧ c ≠ '\u2028' ∧ c ≠ '\u2029'

end Target

/-- Whatever strings a schema holds, they neither add a line to its file nor bring in a
character that could end one. -/
theorem generate_lineStructure {model : Model} {target : Target} {generated : GeneratedFile}
    (success : generate model target = .ok generated) :
    generated.content.toList.count '\n' = target.lineCount model ∧
      ∀ c ∈ generated.content.toList, target.Allows c := by
  cases target with
  | go options =>
      obtain ⟨symbols, file, _, laid, rfl⟩ := generate_go_eq_ok_iff.mp success
      have inline := Go.File.lines_inline (Go.layFile_printable laid)
      rw [Go.File.toList_text]
      constructor
      · rw [Text.count_unlines fun line member => (inline line member).closed]
        exact Go.File.length_lines laid
      · intro c member
        rcases Text.mem_unlines member with lineBreak | ⟨line, present, inside⟩
        · exact .inl lineBreak
        · rcases inline line present c inside with tab | plain
          · exact .inr (.inl tab)
          · exact .inr (.inr (by simpa [Text.isPlain] using plain))
  | typescript options =>
      obtain ⟨file, laid, rfl⟩ := generate_typeScript_eq_ok_iff.mp success
      have oneLine := TypeScript.File.lines_oneLine (TypeScript.layFile_printable laid)
      rw [TypeScript.File.toList_text]
      constructor
      · rw [Text.count_unlines fun line member => (oneLine line member).closed]
        exact TypeScript.File.length_lines laid
      · intro c member
        rcases Text.mem_unlines member with lineBreak | ⟨line, present, inside⟩
        · exact .inl lineBreak
        · have keeps := oneLine line present c inside
          exact .inr (by simpa [Text.keepsLine, and_assoc] using keeps)

/-- Values and keys that would end their line if they were printed as they are. -/
def hostile : Model where
  decls :=
    [ .enum ⟨"Mood", .string, [⟨"Good", .string "a\"\n\x7d\nb"⟩, ⟨"Bad", .string "\x7f\u2028"⟩]⟩,
      .enum ⟨"Nothing", .integer, []⟩,
      .record ⟨"Letter", [⟨"text", .primitive .string, "text\u2029"⟩]⟩ ]
  valid := by decide

theorem hostile_lineStructure :
    ∃ generated, generate hostile (.typescript {}) = .ok generated ∧
      generated.content.toList.count '\n' = 13 ∧
      ∀ c ∈ generated.content.toList, Target.Allows (.typescript {}) c := by
  have accepted : TypeScript.Accepts hostile {} :=
    ⟨by decide +kernel, fun _ => by decide +kernel⟩
  obtain ⟨generated, success⟩ := TypeScript.generate_exists_iff.mpr accepted
  exact ⟨generated, success, generate_lineStructure success⟩

end WireSchema
