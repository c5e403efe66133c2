import WireSchema.Proofs.Go.Scope
import WireSchema.Proofs.Text.Delimited

namespace WireSchema.Go

/-! A Go file tells what it was printed for.

The type lines and the rows below them can be read back from the text, whatever the widths
of the columns.  A row says what its case or field says: the literal of a value ends where
its row ends, and the key of a field stands between fixed marks.
-/

/-- Two cases, each under the symbols of its own model, become the same constant. -/
structure SameConstant (leftSymbols rightSymbols : Symbols) (leftEnum rightEnum : String)
    (left right : EnumCase) : Prop where
  identifier : ∃ identifier, leftSymbols.member? leftEnum left.name = some identifier ∧
    rightSymbols.member? rightEnum right.name = some identifier
  value : left.value = right.value

/-- Two fields, each in its own model, become the same struct field. -/
structure SameField (leftModel rightModel : Model) (leftSymbols rightSymbols : Symbols)
    (leftRecord rightRecord : String) (left right : Field) : Prop where
  identifier : Text.capitalize left.name = Text.capitalize right.name
  type : ∃ leftType rightType,
    fieldType leftModel leftSymbols ⟨leftRecord, left.name⟩ left.type = .ok leftType ∧
      fieldType rightModel rightSymbols ⟨rightRecord, right.name⟩ right.type = .ok rightType ∧
      leftType.text = rightType.text
  key : left.key = right.key

/-- Two types, each in its own model, become the same declaration. -/
inductive SameDeclaration (leftModel rightModel : Model) (leftSymbols rightSymbols : Symbols) :
    TypeDecl → TypeDecl → Prop where
  | enum {left right : EnumType} {identifier : String} :
      leftSymbols.type? left.name = some identifier →
      rightSymbols.type? right.name = some identifier →
      left.backing = right.backing →
      List.Forall₂ (SameConstant leftSymbols rightSymbols left.name right.name)
        left.cases right.cases →
      SameDeclaration leftModel rightModel leftSymbols rightSymbols (.enum left) (.enum right)
  | struct {left right : RecordType} {identifier : String} :
      leftSymbols.type? left.name = some identifier →
      rightSymbols.type? right.name = some identifier →
      List.Forall₂
        (SameField leftModel rightModel leftSymbols rightSymbols left.name right.name)
        left.fields right.fields →
      SameDeclaration leftModel rightModel leftSymbols rightSymbols (.record left) (.record right)

theorem literal_injective {left right : CaseValue} (same : literal left = literal right) :
    left = right := by
  have spelled := congrArg String.toList same
  rw [toList_literal, toList_literal] at spelled
  exact literalText_injective isCode_escape spelled

theorem tag_injective {left right : String} (same : tag left = tag right) : left = right := by
  have spelled := congrArg String.toList same
  simp only [tag, String.toList_append, List.append_assoc] at spelled
  have keys := List.append_cancel_right (List.append_cancel_left spelled)
  exact String.toList_inj.mp keys

theorem backingType_injective {left right : Backing}
    (same : backingType left = backingType right) : left = right := by
  cases left with
  | integer =>
      cases right with
      | integer => rfl
      | string => exact absurd same (by decide)
  | string =>
      cases right with
      | integer => exact absurd same (by decide)
      | string => rfl

/-- Equal rows come from constants with the same identifier and value. -/
theorem Row.ofConstant_injective {leftType rightType : String} {left right : Constant}
    (same : Row.ofConstant leftType left = Row.ofConstant rightType right) : left = right := by
  obtain ⟨identifier, value⟩ := left
  obtain ⟨otherIdentifier, otherValue⟩ := right
  simp only [ofConstant, Row.mk.injEq] at same
  have last := congrArg String.toList same.2.2
  simp only [String.toList_append] at last
  have literals := String.toList_inj.mp (List.append_cancel_left last)
  rw [same.1, literal_injective literals]

section

variable {leftModel rightModel : Model} {leftSymbols rightSymbols : Symbols}

theorem Row.ofField_same {leftRecord rightRecord : String} {left right : Field}
    {leftLaid rightLaid : StructField}
    (leftLays : LaidField leftModel leftSymbols leftRecord left leftLaid)
    (same : Row.ofField leftLaid = Row.ofField rightLaid)
    (rightLays : LaidField rightModel rightSymbols rightRecord right rightLaid) :
    SameField leftModel rightModel leftSymbols rightSymbols leftRecord rightRecord left right := by
  simp only [ofField, Row.mk.injEq] at same
  obtain ⟨identifiers, types, tags⟩ := same
  refine ⟨?_, ⟨leftLaid.type, rightLaid.type, leftLays.typed, rightLays.typed, types⟩, ?_⟩
  · rw [← leftLays.identifier_eq, ← rightLays.identifier_eq, identifiers]
  · rw [← leftLays.key_eq, ← rightLays.key_eq, tag_injective tags]

/-- Equal blocks come from types of one kind that say the same. -/
theorem Laid.same {left right : TypeDecl} {leftDeclaration rightDeclaration : Declaration}
    (leftLaid : Laid leftModel leftSymbols left leftDeclaration)
    (same : leftDeclaration.block = rightDeclaration.block)
    (rightLaid : Laid rightModel rightSymbols right rightDeclaration) :
    SameDeclaration leftModel rightModel leftSymbols rightSymbols left right := by
  have kinds := congrArg Block.isStruct same
  have identifiers := congrArg Block.identifier same
  have bodies := congrArg Block.body same
  have rows := congrArg Block.rows same
  cases leftLaid with
  | enum leftSymbol _ leftConstants =>
      cases rightLaid with
      | enum rightSymbol _ rightConstants =>
          cases identifiers
          refine .enum leftSymbol rightSymbol (backingType_injective bodies) ?_
          refine forall₂_join leftConstants (forall₂_map_eq_iff.mpr rows) rightConstants ?_
          intro left leftConstant rightConstant right leftLays sameRow rightLays
          cases Row.ofConstant_injective sameRow
          exact ⟨⟨_, leftLays.symbol, rightLays.symbol⟩,
            leftLays.value_eq.symm.trans rightLays.value_eq⟩
      | struct =>
          rw [Declaration.isStruct_enum, Declaration.isStruct_struct] at kinds
          cases kinds
  | struct leftSymbol _ leftFields _ =>
      cases rightLaid with
      | enum =>
          rw [Declaration.isStruct_enum, Declaration.isStruct_struct] at kinds
          cases kinds
      | struct rightSymbol _ rightFields _ =>
          cases identifiers
          refine .struct leftSymbol rightSymbol ?_
          refine forall₂_join leftFields (forall₂_map_eq_iff.mpr rows) rightFields ?_
          intro left leftField rightField right leftLays sameRow rightLays
          exact Row.ofField_same leftLays sameRow rightLays

end

/-- The line of the package stands right below the banner, in every file. -/
theorem File.package_eq {left right : File} (leftPrintable : left.Printable)
    (rightPrintable : right.Printable) (same : left.text = right.text) :
    left.package = right.package := by
  have content := congrArg (fun text : String => Text.lines text.toList) same
  simp only [lines_toList_text leftPrintable, lines_toList_text rightPrintable, lines,
    List.append_assoc, List.singleton_append] at content
  have below := List.append_cancel_left content
  have line := (List.cons.inj below).1
  simp only [packageLine, String.toList_append] at line
  exact String.toList_inj.mp (List.append_cancel_left line)

/-- Two models that are printed alike are for the same package, and their types become the
same declarations, one by one. -/
theorem generate_go_lossless {leftModel rightModel : Model} {leftOptions rightOptions : GoOptions}
    {left right : GeneratedFile}
    (leftSuccess : generate leftModel (.go leftOptions) = .ok left)
    (rightSuccess : generate rightModel (.go rightOptions) = .ok right)
    (same : left.content = right.content) :
    leftOptions.package = rightOptions.package ∧
      ∃ leftSymbols rightSymbols, resolve naming leftModel = .ok leftSymbols ∧
        resolve naming rightModel = .ok rightSymbols ∧
        List.Forall₂ (SameDeclaration leftModel rightModel leftSymbols rightSymbols)
          leftModel.decls rightModel.decls := by
  obtain ⟨leftSymbols, leftFile, leftResolved, leftLaid, rfl⟩ :=
    generate_go_eq_ok_iff.mp leftSuccess
  obtain ⟨rightSymbols, rightFile, rightResolved, rightLaid, rfl⟩ :=
    generate_go_eq_ok_iff.mp rightSuccess
  have leftPrintable := layFile_printable leftLaid
  have rightPrintable := layFile_printable rightLaid
  obtain ⟨leftPackage, _, leftRelated⟩ := layFile_eq_ok_iff.mp leftLaid
  obtain ⟨rightPackage, _, rightRelated⟩ := layFile_eq_ok_iff.mp rightLaid
  have blocks := congrArg outline same
  simp only [outline_text leftPrintable, outline_text rightPrintable] at blocks
  refine ⟨?_, leftSymbols, rightSymbols, leftResolved, rightResolved, ?_⟩
  · rw [← leftPackage, ← rightPackage]
    exact File.package_eq leftPrintable rightPrintable same
  · refine forall₂_join leftRelated (forall₂_map_eq_iff.mpr blocks) rightRelated ?_
    intro left leftDeclaration rightDeclaration right leftLays sameBlock rightLays
    exact leftLays.same sameBlock rightLays

/-- The file of `team` again, from other names, other types and needless nullables. -/
def crew : Model where
  decls :=
    [ .enum ⟨"Role", .string, [⟨"Guest", .string "guest"⟩, ⟨"Team", .string "team"⟩]⟩,
      .record ⟨"Member",
        [ ⟨"Name", .primitive .datetime, "name"⟩,
          ⟨"roles", .nullable (.list (.named "Role")), "roles"⟩,
          ⟨"team", .nullable (.nullable (.named "Team")), "team"⟩ ]⟩,
      .record ⟨"Team", [⟨"members", .list (.nullable (.named "Member")), "members"⟩]⟩ ]
  valid := by decide

def crewSymbols : Symbols where
  language := .go
  bindings :=
    [ ⟨.type "Role", "Role"⟩, ⟨.type "Member", "Member"⟩, ⟨.type "Team", "Team"⟩,
      ⟨.member "Role" "Guest", "Guest"⟩, ⟨.member "Role" "Team", "TeamRole"⟩ ]

theorem generate_crew :
    generate crew (.go ⟨"gen", "crew.go"⟩) =
      .ok ⟨.go ⟨"gen", "crew.go"⟩, "crew.go", teamFile.text⟩ := by
  have resolved : resolve naming crew = .ok crewSymbols := by decide +kernel
  have laid : layFile crew crewSymbols "gen" = .ok teamFile := by decide +kernel
  exact generate_go_eq_ok_iff.mpr ⟨crewSymbols, teamFile, resolved, laid, rfl⟩

theorem crew_go_lossless :
    ∃ left right, generate team (.go {}) = .ok left ∧
      generate crew (.go ⟨"gen", "crew.go"⟩) = .ok right ∧ left.content = right.content ∧
      GoOptions.package {} = GoOptions.package ⟨"gen", "crew.go"⟩ ∧
      ∃ leftSymbols rightSymbols, resolve naming team = .ok leftSymbols ∧
        resolve naming crew = .ok rightSymbols ∧
        List.Forall₂ (SameDeclaration team crew leftSymbols rightSymbols) team.decls crew.decls :=
  ⟨_, _, generate_team, generate_crew, rfl, generate_go_lossless generate_team generate_crew rfl⟩

end WireSchema.Go
