import WireSchema.Proofs.Acceptance
import WireSchema.Proofs.Text.Delimited
import WireSchema.Proofs.TypeScript.Lines

namespace WireSchema.TypeScript

/-! A TypeScript file tells what it was printed for.

Blank lines keep the declarations apart.  The first line of a declaration gives its kind and
its name, and the lines after it hold one member each, whose name ends where its own
characters or its quotation marks do.
-/

/-- Two fields, each in its own model, become the same property. -/
structure SameProperty (leftModel rightModel : Model) (leftRecord rightRecord : String)
    (left right : Field) : Prop where
  key : left.key = right.key
  type : ∃ leftType rightType,
    fieldType leftModel ⟨leftRecord, left.name⟩ left.type = .ok leftType ∧
      fieldType rightModel ⟨rightRecord, right.name⟩ right.type = .ok rightType ∧
      typeText leftType = typeText rightType

/-- Two types, each in its own model, become the same declaration. -/
inductive SameDeclaration (leftModel rightModel : Model) : EnumStyle → TypeDecl → TypeDecl → Prop
  where
  | enum {left right : EnumType} :
      left.name = right.name → left.cases = right.cases →
      SameDeclaration leftModel rightModel .enum (.enum left) (.enum right)
  | literalUnion {left right : EnumType} :
      left.name = right.name → left.cases.map EnumCase.value = right.cases.map EnumCase.value →
      SameDeclaration leftModel rightModel .unionType (.enum left) (.enum right)
  | object {style : EnumStyle} {left right : RecordType} :
      left.name = right.name →
      List.Forall₂ (SameProperty leftModel rightModel left.name right.name)
        left.fields right.fields →
      SameDeclaration leftModel rightModel style (.record left) (.record right)

def inName (c : Char) : Bool := Text.continuesIdentifier ['$'] c

theorem name_ne_quote {name text : String} (identifier : isIdentifierName name = true)
    (afterLeft afterRight : List Char) :
    name.toList ++ afterLeft ≠ (stringLiteral text).toList ++ afterRight := by
  intro same
  obtain ⟨first, rest, form⟩ := List.exists_cons_of_ne_nil (Text.ne_empty_of_identifier identifier)
  have continues := Text.continues_of_mem_identifier identifier first (by simp [form])
  rw [form, stringLiteral, Text.toList_quote, Text.quoteChars, List.cons_append,
    List.cons_append] at same
  rw [(List.cons.inj same).1] at continues
  exact absurd continues (by decide)

/-- A property name ends by itself in quotes, and else where a character follows that no
identifier has. -/
theorem propertyName_delimited :
    Text.Delimited (fun after => ∀ c ∈ after.head?, inName c = false)
      fun name => (propertyName name).toList := by
  intro left right afterLeft afterRight leftStops rightStops same
  simp only [propertyName] at same
  by_cases leftBare : isIdentifierName left = true
  · by_cases rightBare : isIdentifierName right = true
    · rw [if_pos leftBare, if_pos rightBare] at same
      have both := Text.append_inj_of_runs (Text.continues_of_mem_identifier leftBare)
        (Text.continues_of_mem_identifier rightBare) leftStops rightStops same
      exact ⟨String.toList_inj.mp both.1, both.2⟩
    · rw [if_pos leftBare, if_neg rightBare] at same
      exact absurd same (name_ne_quote leftBare _ _)
  · by_cases rightBare : isIdentifierName right = true
    · rw [if_neg leftBare, if_pos rightBare] at same
      exact absurd same.symm (name_ne_quote rightBare _ _)
    · rw [if_neg leftBare, if_neg rightBare] at same
      exact @Text.quote_delimited escape isCode_escape left right _ _ trivial trivial same

theorem EnumMember.row_injective {left right : EnumMember} (same : left.row = right.row) :
    left = right := by
  obtain ⟨name, value⟩ := left
  obtain ⟨otherName, otherValue⟩ := right
  simp only [row, String.toList_append, List.append_assoc] at same
  have members := List.append_cancel_left same
  have stops := Text.stops_of_separator (by decide : " = ".toList.head?.any (!inName ·) = true)
  obtain ⟨names, values⟩ := propertyName_delimited (stops _) (stops _) members
  have literals := List.append_cancel_right (List.append_cancel_left values)
  rw [toList_literal, toList_literal] at literals
  rw [names, literalText_injective isCode_escape literals]

theorem Property.row_injective {left right : Property} (same : left.row = right.row) :
    left.key = right.key ∧ typeText left.type = typeText right.type := by
  simp only [row, String.toList_append, List.append_assoc] at same
  have members := List.append_cancel_left same
  have stops := Text.stops_of_separator (by decide : ": ".toList.head?.any (!inName ·) = true)
  obtain ⟨names, types⟩ := propertyName_delimited (stops _) (stops _) members
  have texts := List.append_cancel_right (List.append_cancel_left types)
  exact ⟨names, String.toList_inj.mp texts⟩

theorem literals_injective {left right : List CaseValue} (leftNonempty : left ≠ [])
    (rightNonempty : right ≠ [])
    (same : "= " ++ " | ".intercalate (left.map literal) ++ ";" =
      "= " ++ " | ".intercalate (right.map literal) ++ ";") : left = right := by
  have spelled := congrArg String.toList same
  simp only [String.toList_append, String.toList_intercalate, List.map_map, List.append_assoc]
    at spelled
  have form : String.toList ∘ literal = literalText escape := funext toList_literal
  rw [form] at spelled
  have lists := List.append_cancel_left spelled
  have endStops : ∀ c ∈ [';'].head?, Number.inNumeral c = false := by
    simp [Number.inNumeral]
  refine Text.intercalate_injective (literalText_delimited isCode_escape)
    (Text.stops_of_separator (by decide)) endStops ?_ leftNonempty rightNonempty lists
  intro after equal
  exact absurd (congrArg List.head? equal) (by simp)

/-- A list of literals is neither `never` nor the type of an object. -/
theorem literals_ne {values : List CaseValue} (nonempty : values ≠ []) {other : String}
    (foreign : (other.toList.drop 2).head?.any (fun c => Number.inNumeral c || c == '"') = false) :
    "= " ++ " | ".intercalate (values.map literal) ++ ";" ≠ other := by
  intro same
  obtain ⟨value, values, rfl⟩ := List.exists_cons_of_ne_nil nonempty
  obtain ⟨first, rest, form, opens⟩ := literalText_opens escape value
  have head : (" | ".toList.intercalate ((value :: values).map (literalText escape))).head? =
      some first := by
    cases values with
    | nil => simp [form]
    | cons next values => simp [form, List.intercalate_cons_cons]
  have spelled := congrArg (fun text : String => (text.toList.drop 2).head?) same
  simp only [String.toList_append, String.toList_intercalate, List.map_map] at spelled
  have texts : String.toList ∘ literal = literalText escape := funext toList_literal
  rw [texts] at spelled
  have dropped (rest : List Char) : ("= ".toList ++ rest ++ ";".toList).drop 2 =
      rest ++ ";".toList := rfl
  rw [dropped, List.head?_append, head] at spelled
  rw [← spelled] at foreign
  simp [opens] at foreign

namespace Declaration

theorem firstLine_injective {left right : Declaration}
    (leftNamed : isIdentifierName left.name = true)
    (rightNamed : isIdentifierName right.name = true)
    (same : left.firstLine = right.firstLine) :
    left.keyword = right.keyword ∧ left.name = right.name ∧ left.opening = right.opening := by
  have word (declaration : Declaration) :
      ∀ c ∈ declaration.keyword.toList, inName c = true := by
    cases declaration with
    | enum _ _ => exact List.all_eq_true.mp (by decide : "enum".toList.all inName = true)
    | literalUnion _ _ => exact List.all_eq_true.mp (by decide : "type".toList.all inName = true)
    | object _ _ => exact List.all_eq_true.mp (by decide : "type".toList.all inName = true)
  have stops := Text.stops_of_separator (by decide : " ".toList.head?.any (!inName ·) = true)
  simp only [firstLine, String.toList_append, List.append_assoc] at same
  have words := List.append_cancel_left same
  obtain ⟨keywords, rest⟩ := Text.append_inj_of_runs (word left) (word right) (stops _) (stops _)
    words
  obtain ⟨names, openings⟩ := Text.append_inj_of_runs
    (Text.continues_of_mem_identifier leftNamed) (Text.continues_of_mem_identifier rightNamed)
    (stops _) (stops _) (List.append_cancel_left rest)
  exact ⟨String.toList_inj.mp keywords, String.toList_inj.mp names,
    String.toList_inj.mp (List.append_cancel_left openings)⟩

theorem enum_injective {leftName rightName : String} {left right : List EnumMember}
    (openings : (enum leftName left).opening = (enum rightName right).opening)
    (later : (enum leftName left).laterLines = (enum rightName right).laterLines) :
    left = right := by
  match left, right with
  | [], [] => rfl
  | [], _ :: _ => exact absurd openings (by decide : "\x7b\x7d" ≠ "\x7b")
  | _ :: _, [] => exact absurd openings (by decide : "\x7b" ≠ "\x7b\x7d")
  | _ :: _, _ :: _ =>
      have rows := List.append_cancel_right later
      exact List.map_injective_iff.mpr (fun _ _ => EnumMember.row_injective) rows

theorem literalUnion_injective {leftName rightName : String} {left right : List CaseValue}
    (openings : (literalUnion leftName left).opening = (literalUnion rightName right).opening) :
    left = right := by
  match left, right with
  | [], [] => rfl
  | [], _ :: _ =>
      exact absurd openings.symm (@literals_ne _ (List.cons_ne_nil _ _) "= never;" (by decide))
  | _ :: _, [] =>
      exact absurd openings (@literals_ne _ (List.cons_ne_nil _ _) "= never;" (by decide))
  | _ :: _, _ :: _ =>
      exact literals_injective (List.cons_ne_nil _ _) (List.cons_ne_nil _ _) openings

theorem object_same {leftName rightName : String} {left right : List Property}
    (openings : (object leftName left).opening = (object rightName right).opening)
    (later : (object leftName left).laterLines = (object rightName right).laterLines) :
    List.Forall₂ (fun l r => l.key = r.key ∧ typeText l.type = typeText r.type) left right := by
  match left, right with
  | [], [] => exact .nil
  | [], _ :: _ => exact absurd openings (by decide : "= \x7b\x7d;" ≠ "= \x7b")
  | _ :: _, [] => exact absurd openings (by decide : "= \x7b" ≠ "= \x7b\x7d;")
  | _ :: _, _ :: _ =>
      have rows := forall₂_map_eq_iff.mpr (List.append_cancel_right later)
      exact rows.imp fun _ _ => Property.row_injective

theorem literalUnion_ne_object {leftName rightName : String} {values : List CaseValue}
    {properties : List Property} :
    (literalUnion leftName values).opening ≠ (object rightName properties).opening := by
  match values, properties with
  | [], [] => exact (by decide : "= never;" ≠ "= \x7b\x7d;")
  | [], _ :: _ => exact (by decide : "= never;" ≠ "= \x7b")
  | _ :: _, [] => exact @literals_ne _ (List.cons_ne_nil _ _) "= \x7b\x7d;" (by decide)
  | _ :: _, _ :: _ => exact @literals_ne _ (List.cons_ne_nil _ _) "= \x7b" (by decide)

/-- No line of a declaration is blank. -/
theorem nil_not_mem_lines (declaration : Declaration) : [] ∉ declaration.lines := by
  have first : declaration.firstLine ≠ [] := by simp [firstLine]
  have member (member : EnumMember) : member.row ≠ [] := by simp [EnumMember.row]
  have property (property : Property) : property.row ≠ [] := by simp [Property.row]
  rw [lines, List.mem_cons, not_or]
  refine ⟨first.symm, ?_⟩
  cases declaration with
  | enum name members => cases members <;> simp [laterLines, member]
  | literalUnion name values => simp [laterLines]
  | object name properties => cases properties <;> simp [laterLines, property]

end Declaration

section

variable {leftModel rightModel : Model}

theorem Laid.name {model : Model} {style : EnumStyle} {decl : TypeDecl}
    {declaration : Declaration} (laid : Laid model style decl declaration) :
    isIdentifierName declaration.name = true := by
  cases laid with
  | enum accepted _ => exact isIdentifierName_of_type accepted
  | literalUnion accepted => exact isIdentifierName_of_type accepted
  | object accepted _ => exact isIdentifierName_of_type accepted

/-- Declarations that are printed alike come from types of one kind that say the same. -/
theorem Laid.same {style : EnumStyle} {left right : TypeDecl}
    {leftDeclaration rightDeclaration : Declaration}
    (leftLaid : Laid leftModel style left leftDeclaration)
    (same : leftDeclaration.lines = rightDeclaration.lines)
    (rightLaid : Laid rightModel style right rightDeclaration) :
    SameDeclaration leftModel rightModel style left right := by
  rw [Declaration.lines, Declaration.lines, List.cons.injEq] at same
  obtain ⟨firstLines, later⟩ := same
  obtain ⟨keywords, names, openings⟩ :=
    Declaration.firstLine_injective leftLaid.name rightLaid.name firstLines
  cases leftLaid with
  | enum _ _ =>
      cases rightLaid with
      | enum _ _ =>
          have members := Declaration.enum_injective openings later
          have cases : Function.Injective EnumMember.ofCase := by
            intro case other same
            cases case
            cases other
            cases same
            rfl
          exact .enum names (List.map_injective_iff.mpr cases members)
      | object _ _ => exact absurd keywords (by decide : "enum" ≠ "type")
  | literalUnion _ =>
      cases rightLaid with
      | literalUnion _ => exact .literalUnion names (Declaration.literalUnion_injective openings)
      | object _ _ => exact absurd openings Declaration.literalUnion_ne_object
  | object _ leftProperties =>
      cases rightLaid with
      | enum _ _ => exact absurd keywords (by decide : "type" ≠ "enum")
      | literalUnion _ => exact absurd openings.symm Declaration.literalUnion_ne_object
      | object _ rightProperties =>
          refine .object names (forall₂_join leftProperties
            (Declaration.object_same openings later) rightProperties ?_)
          intro left leftProperty rightProperty right leftLays sameProperty rightLays
          refine ⟨?_, leftProperty.type, rightProperty.type, leftLays.typed, rightLays.typed,
            sameProperty.2⟩
          rw [← leftLays.key_eq, ← rightLays.key_eq, sameProperty.1]

end

/-- Two models that are printed alike, with enums in the same style, have types that become
the same declarations, one by one. -/
theorem generate_typeScript_lossless {leftModel rightModel : Model}
    {leftOptions rightOptions : TypeScriptOptions} {left right : GeneratedFile}
    (leftSuccess : generate leftModel (.typescript leftOptions) = .ok left)
    (rightSuccess : generate rightModel (.typescript rightOptions) = .ok right)
    (styles : leftOptions.enumStyle = rightOptions.enumStyle)
    (same : left.content = right.content) :
    List.Forall₂ (SameDeclaration leftModel rightModel leftOptions.enumStyle)
      leftModel.decls rightModel.decls := by
  obtain ⟨leftFile, leftLaid, rfl⟩ := generate_typeScript_eq_ok_iff.mp leftSuccess
  obtain ⟨rightFile, rightLaid, rfl⟩ := generate_typeScript_eq_ok_iff.mp rightSuccess
  have leftRelated := layFile_eq_ok_iff.mp leftLaid
  have rightRelated := layFile_eq_ok_iff.mp rightLaid
  rw [← styles] at rightRelated
  have content := congrArg (fun text : String => Text.lines text.toList) same
  simp only [File.lines_toList_text (layFile_printable leftLaid),
    File.lines_toList_text (layFile_printable rightLaid), File.lines] at content
  have blocks := List.append_cancel_left (List.append_cancel_right content)
  rw [← List.flatMap_map Declaration.lines ([] :: ·),
    ← List.flatMap_map Declaration.lines ([] :: ·)] at blocks
  have full (file : File) : ∀ block ∈ file.declarations.map Declaration.lines, [] ∉ block := by
    rw [List.forall_mem_map]
    exact fun declaration _ => declaration.nil_not_mem_lines
  have declarations := Text.flatMap_blank_injective (full leftFile) (full rightFile) blocks
  refine forall₂_join leftRelated (forall₂_map_eq_iff.mpr declarations) rightRelated ?_
  intro left leftDeclaration rightDeclaration right leftLays sameLines rightLays
  exact leftLays.same sameLines rightLays

/-- An answer that needs quotes, and a time that may be missing. -/
def poll : Model where
  decls :=
    [ .enum ⟨"Answer", .string, [⟨"yes", .string "y | n"⟩, ⟨"in doubt", .string "?"⟩]⟩,
      .record ⟨"Vote",
        [ ⟨"choice", .named "Answer", "choice"⟩,
          ⟨"at", .nullable (.primitive .datetime), "cast at"⟩ ]⟩ ]
  valid := by decide

/-- The file of `poll` again, from other field names and other types. -/
def ballot : Model where
  decls :=
    [ .enum ⟨"Answer", .string, [⟨"yes", .string "y | n"⟩, ⟨"in doubt", .string "?"⟩]⟩,
      .record ⟨"Vote",
        [ ⟨"pick", .union [.named "Answer", .named "Answer"], "choice"⟩,
          ⟨"time", .union [.primitive .string, .nullable (.primitive .datetime)], "cast at"⟩ ]⟩ ]
  valid := by decide

def pollFile : File where
  declarations :=
    [ .enum "Answer" [⟨"yes", .string "y | n"⟩, ⟨"in doubt", .string "?"⟩],
      .object "Vote"
        [ ⟨"choice", [.declared "Answer"]⟩,
          ⟨"cast at", [.builtin .string, .builtin .null]⟩ ] ]

theorem generate_poll :
    generate poll (.typescript {}) = .ok ⟨.typescript {}, "generated.ts", pollFile.text⟩ := by
  have laid : layFile poll .enum = .ok pollFile := by
    refine layFile_eq_ok_iff.mpr (.cons (.enum (by decide) (by decide +kernel)) (.cons ?_ .nil))
    exact .object (by decide) (.cons ⟨rfl, rfl⟩ (.cons ⟨rfl, rfl⟩ .nil))
  exact generate_typeScript_eq_ok_iff.mpr ⟨pollFile, laid, rfl⟩

theorem generate_ballot :
    generate ballot (.typescript {}) = .ok ⟨.typescript {}, "generated.ts", pollFile.text⟩ := by
  have laid : layFile ballot .enum = .ok pollFile := by
    refine layFile_eq_ok_iff.mpr (.cons (.enum (by decide) (by decide +kernel)) (.cons ?_ .nil))
    exact .object (by decide) (.cons ⟨rfl, rfl⟩ (.cons ⟨rfl, rfl⟩ .nil))
  exact generate_typeScript_eq_ok_iff.mpr ⟨pollFile, laid, rfl⟩

theorem ballot_typeScript_lossless :
    ∃ left right, generate poll (.typescript {}) = .ok left ∧
      generate ballot (.typescript {}) = .ok right ∧ left.content = right.content ∧
      List.Forall₂ (SameDeclaration poll ballot .enum) poll.decls ballot.decls :=
  ⟨_, _, generate_poll, generate_ballot, rfl,
    generate_typeScript_lossless generate_poll generate_ballot rfl rfl⟩

end WireSchema.TypeScript
