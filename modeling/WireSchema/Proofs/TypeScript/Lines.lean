import WireSchema.Proofs.Text.Lines
import WireSchema.Proofs.Text.Plain
import WireSchema.Proofs.TypeScript.Layout

namespace WireSchema.TypeScript

/-! A TypeScript file as a list of lines.

Whatever a schema says reaches the file as an identifier, a numeral or a quoted text, and
none of these holds a character that ends a line.
-/

open Text (keepsLine)

mutual
def Member.names : Member → List String
  | .builtin _ => []
  | .declared name => [name]
  | .array element => typeNames element

def typeNames : List Member → List String
  | [] => []
  | member :: rest => member.names ++ typeNames rest
end

theorem typeNames_append (left right : List Member) :
    typeNames (left ++ right) = typeNames left ++ typeNames right := by
  induction left with
  | nil => rfl
  | cons member rest ih => rw [List.cons_append, typeNames, typeNames, ih, List.append_assoc]

theorem mem_typeNames_addMember {earlier : TypeExpr} {member : Member} {name : String}
    (inside : name ∈ typeNames (addMember earlier member)) :
    name ∈ typeNames earlier ∨ name ∈ member.names := by
  rw [addMember] at inside
  split at inside
  · exact .inl inside
  · rw [typeNames_append, typeNames, typeNames, List.append_nil] at inside
    exact List.mem_append.mp inside

section

variable {model : Model} {place : FieldPlace} {name : String}

mutual
/-- No name gets into a type but those it refers to. -/
theorem mem_typeNames_collect {earlier members : TypeExpr}
    (inside : name ∈ typeNames members) :
    (type : TypeRef) → collect model place earlier type = .ok members →
      name ∈ typeNames earlier ∨ name ∈ type.names
  | .primitive scalar, collected => by
      cases collected
      exact mem_typeNames_addMember inside
  | .named _, collected => by
      rw [collect, when_eq_ok_iff] at collected
      cases collected.2
      exact mem_typeNames_addMember inside
  | .list element, collected => by
      rw [collect, bind_eq_ok_iff] at collected
      obtain ⟨inner, collectedInner, same⟩ := collected
      cases same
      rcases mem_typeNames_addMember inside with before | added
      · exact .inl before
      · have referred := mem_typeNames_collect added element collectedInner
        exact .inr (referred.resolve_left List.not_mem_nil)
  | .nullable inner, collected => by
      rw [collect, bind_eq_ok_iff] at collected
      obtain ⟨bare, collectedBare, same⟩ := collected
      cases same
      rcases mem_typeNames_addMember inside with before | added
      · exact mem_typeNames_collect before inner collectedBare
      · cases added
  | .union members, collected => by
      rw [collect] at collected
      exact mem_typeNames_collectAll inside members collected

theorem mem_typeNames_collectAll {earlier members : TypeExpr}
    (inside : name ∈ typeNames members) :
    (types : List TypeRef) → collectAll model place earlier types = .ok members →
      name ∈ typeNames earlier ∨ name ∈ TypeRef.memberNames types
  | [], collected => by
      cases collected
      exact .inl inside
  | type :: rest, collected => by
      rw [collectAll, bind_eq_ok_iff] at collected
      obtain ⟨first, collectedFirst, collectedRest⟩ := collected
      rw [TypeRef.memberNames, List.mem_append]
      rcases mem_typeNames_collectAll inside rest collectedRest with before | later
      · have referred := mem_typeNames_collect before type collectedFirst
        exact referred.imp_right .inl
      · exact .inr (.inr later)
end

theorem fieldType_declares {type : TypeRef} {expr : TypeExpr}
    (typed : fieldType model place type = .ok expr) (inside : name ∈ typeNames expr) :
    model.declares name = true := by
  have referred := (mem_typeNames_collect inside type typed).resolve_left List.not_mem_nil
  exact fieldType_exists_iff.mp ⟨expr, typed⟩ name referred

end

theorem name_keepsLine {name : String} (identifier : isIdentifierName name = true) :
    ∀ c ∈ name.toList, keepsLine c = true := by
  intro c member
  have continues := Text.continues_of_mem_identifier identifier c member
  exact Text.keepsLine_of_continuesIdentifier (List.all_eq_true.mp (by decide)) continues

theorem literal_keepsLine (value : CaseValue) :
    ∀ c ∈ (literal value).toList, keepsLine c = true := by
  cases value with
  | integer value => exact numeral_keepsLine value
  | string text => exact stringLiteral_keepsLine text

theorem propertyName_keepsLine (name : String) :
    ∀ c ∈ (propertyName name).toList, keepsLine c = true := by
  rw [propertyName]
  split
  · rename_i identifier
    exact name_keepsLine identifier
  · exact stringLiteral_keepsLine name

section

variable {allowed : Char → Bool}

theorem intercalate_all {separator : String} {texts : List String}
    (separatorAllowed : ∀ c ∈ separator.toList, allowed c = true)
    (textsAllowed : ∀ text ∈ texts, ∀ c ∈ text.toList, allowed c = true) :
    ∀ c ∈ (separator.intercalate texts).toList, allowed c = true := by
  rw [String.toList_intercalate]
  induction texts with
  | nil => simp
  | cons text rest ih =>
      rw [List.forall_mem_cons] at textsAllowed
      cases rest with
      | nil => simpa using textsAllowed.1
      | cons next rest =>
          rw [List.map_cons, List.map_cons, List.intercalate_cons_cons, List.forall_mem_append,
            List.forall_mem_append]
          exact ⟨⟨textsAllowed.1, separatorAllowed⟩, ih textsAllowed.2⟩

/-- The characters that a type puts between its names, and those of the builtin names. -/
structure AllowsTypes (allowed : Char → Bool) : Prop where
  marks : ∀ c ∈ " |()[]".toList, allowed c = true
  builtins : ∀ type : Builtin, ∀ c ∈ type.text.toList, allowed c = true

theorem AllowsTypes.separator (allows : AllowsTypes allowed) :
    ∀ c ∈ " | ".toList, allowed c = true := by
  have inside : " | ".toList ⊆ " |()[]".toList := by simp
  exact fun c member => allows.marks c (inside member)

mutual
theorem Member.text_all (allows : AllowsTypes allowed) :
    (member : Member) → (∀ name ∈ member.names, ∀ c ∈ name.toList, allowed c = true) →
      ∀ c ∈ member.text.toList, allowed c = true
  | .builtin type, _ => by
      rw [Member.text]
      exact allows.builtins type
  | .declared name, namesAllowed => by
      rw [Member.text]
      exact namesAllowed name List.mem_cons_self
  | .array element, namesAllowed => by
      have inner := intercalate_all allows.separator (memberTexts_all allows element namesAllowed)
      have marks : ∀ mark ∈ ["(", ")[]", "[]"], mark.toList ⊆ " |()[]".toList := by simp
      have marked : ∀ mark ∈ ["(", ")[]", "[]"], ∀ c ∈ mark.toList, allowed c = true :=
        fun mark listed c member => allows.marks c (marks mark listed member)
      rw [Member.text]
      split
      · simp only [String.toList_append, List.forall_mem_append]
        exact ⟨⟨marked "(" (by simp), inner⟩, marked ")[]" (by simp)⟩
      · rw [String.toList_append, List.forall_mem_append]
        exact ⟨inner, marked "[]" (by simp)⟩

theorem memberTexts_all (allows : AllowsTypes allowed) :
    (members : List Member) →
      (∀ name ∈ typeNames members, ∀ c ∈ name.toList, allowed c = true) →
      ∀ text ∈ memberTexts members, ∀ c ∈ text.toList, allowed c = true
  | [], _ => by simp [memberTexts]
  | member :: rest, namesAllowed => by
      rw [typeNames, List.forall_mem_append] at namesAllowed
      rw [memberTexts, List.forall_mem_cons]
      exact ⟨member.text_all allows namesAllowed.1, memberTexts_all allows rest namesAllowed.2⟩
end

theorem typeText_all (allows : AllowsTypes allowed) {type : TypeExpr}
    (namesAllowed : ∀ name ∈ typeNames type, ∀ c ∈ name.toList, allowed c = true) :
    ∀ c ∈ (typeText type).toList, allowed c = true :=
  intercalate_all allows.separator (memberTexts_all allows type namesAllowed)

end

theorem allowsTypes_keepsLine : AllowsTypes keepsLine where
  marks := List.all_eq_true.mp (by decide)
  builtins type := by
    cases type <;> exact List.all_eq_true.mp (by decide)

theorem typeText_keepsLine {type : TypeExpr}
    (printable : ∀ name ∈ typeNames type, isIdentifierName name = true) :
    ∀ c ∈ (typeText type).toList, keepsLine c = true :=
  typeText_all allowsTypes_keepsLine fun name member => name_keepsLine (printable name member)

/-- The line of an enum member. -/
def EnumMember.row (member : EnumMember) : List Char :=
  ("  " ++ propertyName member.name ++ " = " ++ literal member.value ++ ",").toList

/-- The line of a property. -/
def Property.row (property : Property) : List Char :=
  ("  " ++ propertyName property.key ++ ": " ++ typeText property.type ++ ";").toList

namespace Declaration

def keyword : Declaration → String
  | .enum _ _ => "enum"
  | .literalUnion _ _ | .object _ _ => "type"

/-- What follows the name on the first line. -/
def opening : Declaration → String
  | .enum _ [] => "{}"
  | .enum _ (_ :: _) => "\x7b"
  | .literalUnion _ [] => "= never;"
  | .literalUnion _ (value :: values) =>
      "= " ++ " | ".intercalate ((value :: values).map literal) ++ ";"
  | .object _ [] => "= {};"
  | .object _ (_ :: _) => "= \x7b"

def firstLine (declaration : Declaration) : List Char :=
  ("export " ++ declaration.keyword ++ " " ++ declaration.name ++ " " ++
    declaration.opening).toList

/-- The lines after the first.  A declaration without members has none. -/
def laterLines : Declaration → List (List Char)
  | .enum _ [] | .literalUnion _ _ | .object _ [] => []
  | .enum _ (member :: members) => (member :: members).map EnumMember.row ++ [['}']]
  | .object _ (property :: properties) =>
      (property :: properties).map Property.row ++ [['}', ';']]

def lines (declaration : Declaration) : List (List Char) :=
  declaration.firstLine :: declaration.laterLines

end Declaration

theorem EnumMember.toList_line (member : EnumMember) :
    member.line.toList = Text.unlines [member.row] := by
  simp [EnumMember.line, EnumMember.row]

theorem Property.toList_line (property : Property) :
    property.line.toList = Text.unlines [property.row] := by
  simp [Property.line, Property.row]

theorem Declaration.toList_text (declaration : Declaration) :
    declaration.text.toList = Text.unlines declaration.lines := by
  match declaration with
  | .enum name [] => simp [text, lines, firstLine, laterLines, keyword, opening, Declaration.name]
  | .enum name (member :: members) =>
      rw [text]
      · simp only [String.toList_append, Text.toList_join_lines EnumMember.toList_line,
          ← List.map_eq_flatMap]
        simp [lines, firstLine, laterLines, keyword, opening, Declaration.name]
      · simp
  | .literalUnion name [] =>
      simp [text, lines, firstLine, laterLines, keyword, opening, Declaration.name]
  | .literalUnion name (value :: values) =>
      simp [text, lines, firstLine, laterLines, keyword, opening, Declaration.name]
  | .object name [] =>
      simp [text, lines, firstLine, laterLines, keyword, opening, Declaration.name]
  | .object name (property :: properties) =>
      rw [text]
      · simp only [String.toList_append, Text.toList_join_lines Property.toList_line,
          ← List.map_eq_flatMap]
        simp [lines, firstLine, laterLines, keyword, opening, Declaration.name]
      · simp

namespace File

def bannerLines : List (List Char) :=
  ["// THIS FILE WAS AUTOGENERATED BY dtoforge.".toList, "// PLEASE DO NOT EDIT IT!".toList]

theorem toList_banner : banner.toList = Text.unlines bannerLines := by
  decide +kernel

def lines (file : File) : List (List Char) :=
  bannerLines ++ file.declarations.flatMap fun declaration => [] :: declaration.lines

theorem toList_text (file : File) : file.text.toList = Text.unlines file.lines := by
  have block (declaration : Declaration) :
      ("\n" ++ declaration.text).toList = Text.unlines ([] :: declaration.lines) := by
    simp [Declaration.toList_text]
  rw [text, lines, String.toList_append, toList_banner, Text.toList_join_lines block,
    Text.unlines_append]

end File

/-- Types are named and referred to by identifiers. -/
def Declaration.Printable : Declaration → Prop
  | .enum name _ | .literalUnion name _ => isIdentifierName name = true
  | .object name properties => isIdentifierName name = true ∧
      ∀ property ∈ properties, ∀ referred ∈ typeNames property.type,
        isIdentifierName referred = true

theorem isIdentifierName_of_type {name : String} (accepted : isTypeIdentifier name = true) :
    isIdentifierName name = true := by
  rw [isTypeIdentifier, Bool.and_eq_true] at accepted
  exact accepted.1

def File.Printable (file : File) : Prop :=
  ∀ declaration ∈ file.declarations, declaration.Printable

theorem layFile_printable {model : Model} {style : EnumStyle} {file : File}
    (laid : layFile model style = .ok file) : file.Printable := by
  have related := layFile_eq_ok_iff.mp laid
  have declared : ∀ name, model.declares name = true → isIdentifierName name = true := by
    intro name declares
    obtain ⟨decl, member, rfl⟩ := (model.declares_iff name).mp declares
    obtain ⟨declaration, _, laidDecl⟩ := forall₂_exists_left related member
    cases laidDecl with
    | enum accepted _ => exact isIdentifierName_of_type accepted
    | literalUnion accepted => exact isIdentifierName_of_type accepted
    | object accepted _ => exact isIdentifierName_of_type accepted
  intro declaration member
  obtain ⟨decl, _, laidDecl⟩ := forall₂_exists_right related member
  cases laidDecl with
  | enum accepted _ => exact isIdentifierName_of_type accepted
  | literalUnion accepted => exact isIdentifierName_of_type accepted
  | object accepted properties =>
      refine ⟨isIdentifierName_of_type accepted, fun property inside referred mentioned => ?_⟩
      obtain ⟨_, _, laidProperty⟩ := forall₂_exists_right properties inside
      exact declared referred (fieldType_declares laidProperty.typed mentioned)

/-- No character of the line ends it. -/
def OneLine (line : List Char) : Prop := ∀ c ∈ line, keepsLine c = true

theorem OneLine.of_all {line : List Char} (keeps : line.all keepsLine = true) : OneLine line :=
  List.all_eq_true.mp keeps

theorem OneLine.closed {line : List Char} (oneLine : OneLine line) : '\n' ∉ line :=
  fun member => absurd (oneLine '\n' member) (by decide)

theorem EnumMember.row_oneLine (member : EnumMember) : OneLine member.row := by
  simp only [OneLine, row, String.toList_append, List.forall_mem_append]
  exact ⟨⟨⟨⟨OneLine.of_all (by decide), propertyName_keepsLine member.name⟩,
    OneLine.of_all (by decide)⟩, literal_keepsLine member.value⟩, OneLine.of_all (by decide)⟩

theorem Property.row_oneLine {property : Property}
    (printable : ∀ name ∈ typeNames property.type, isIdentifierName name = true) :
    OneLine property.row := by
  simp only [OneLine, row, String.toList_append, List.forall_mem_append]
  exact ⟨⟨⟨⟨OneLine.of_all (by decide), propertyName_keepsLine property.key⟩,
    OneLine.of_all (by decide)⟩, typeText_keepsLine printable⟩, OneLine.of_all (by decide)⟩

namespace Declaration

variable {declaration : Declaration}

theorem Printable.name (printable : declaration.Printable) :
    isIdentifierName declaration.name = true := by
  cases declaration with
  | enum name members => exact printable
  | literalUnion name values => exact printable
  | object name properties => exact printable.1

theorem keyword_oneLine (declaration : Declaration) : OneLine declaration.keyword.toList := by
  cases declaration with
  | enum _ _ => exact OneLine.of_all (by decide : "enum".toList.all keepsLine = true)
  | literalUnion _ _ => exact OneLine.of_all (by decide : "type".toList.all keepsLine = true)
  | object _ _ => exact OneLine.of_all (by decide : "type".toList.all keepsLine = true)

theorem opening_oneLine (declaration : Declaration) : OneLine declaration.opening.toList := by
  match declaration with
  | .enum _ [] => exact OneLine.of_all (by decide : "\x7b\x7d".toList.all keepsLine = true)
  | .enum _ (_ :: _) => exact OneLine.of_all (by decide : "\x7b".toList.all keepsLine = true)
  | .literalUnion _ [] => exact OneLine.of_all (by decide : "= never;".toList.all keepsLine = true)
  | .literalUnion _ (value :: values) =>
      have literals : ∀ text ∈ (value :: values).map literal, OneLine text.toList := by
        intro text member
        obtain ⟨value, _, rfl⟩ := List.mem_map.mp member
        exact literal_keepsLine value
      simp only [OneLine, opening, String.toList_append, List.forall_mem_append]
      exact ⟨⟨OneLine.of_all (by decide),
        intercalate_all (OneLine.of_all (by decide)) literals⟩, OneLine.of_all (by decide)⟩
  | .object _ [] => exact OneLine.of_all (by decide : "= \x7b\x7d;".toList.all keepsLine = true)
  | .object _ (_ :: _) => exact OneLine.of_all (by decide : "= \x7b".toList.all keepsLine = true)

theorem firstLine_oneLine (printable : declaration.Printable) :
    OneLine declaration.firstLine := by
  simp only [OneLine, firstLine, String.toList_append, List.forall_mem_append]
  exact ⟨⟨⟨⟨⟨OneLine.of_all (by decide), declaration.keyword_oneLine⟩, OneLine.of_all (by decide)⟩,
    name_keepsLine printable.name⟩, OneLine.of_all (by decide)⟩, declaration.opening_oneLine⟩

theorem laterLines_oneLine (printable : declaration.Printable) :
    ∀ line ∈ declaration.laterLines, OneLine line := by
  match declaration with
  | .enum _ [] | .literalUnion _ _ | .object _ [] => simp [laterLines]
  | .enum _ (member :: members) =>
      rw [laterLines, List.forall_mem_append, List.forall_mem_map, List.forall_mem_singleton]
      exact ⟨fun member _ => member.row_oneLine, OneLine.of_all (by decide)⟩
  | .object _ (property :: properties) =>
      rw [laterLines, List.forall_mem_append, List.forall_mem_map, List.forall_mem_singleton]
      exact ⟨fun property inside => Property.row_oneLine (printable.2 property inside),
        OneLine.of_all (by decide)⟩

theorem lines_oneLine (printable : declaration.Printable) :
    ∀ line ∈ declaration.lines, OneLine line := by
  rw [lines, List.forall_mem_cons]
  exact ⟨firstLine_oneLine printable, laterLines_oneLine printable⟩

end Declaration

namespace File

variable {file : File}

theorem lines_oneLine (printable : file.Printable) : ∀ line ∈ file.lines, OneLine line := by
  have banner : ∀ line ∈ bannerLines, line.all keepsLine = true := by
    decide +kernel
  simp only [lines, List.forall_mem_append, List.forall_mem_flatMap, List.forall_mem_cons]
  refine ⟨fun line member => .of_all (banner line member), fun declaration member => ?_⟩
  exact ⟨OneLine.of_all (by decide), Declaration.lines_oneLine (printable declaration member)⟩

/-- What a printable file says on each line, and nothing after the last line break. -/
theorem lines_toList_text (printable : file.Printable) :
    Text.lines file.text.toList = file.lines ++ [[]] := by
  rw [toList_text]
  exact Text.lines_unlines fun line member => (lines_oneLine printable line member).closed

end File

end WireSchema.TypeScript
