import WireSchema.Proofs.Go.Layout
import WireSchema.Proofs.Text.Lines
import WireSchema.Proofs.Text.Plain

namespace WireSchema.Go

/-! A Go file as a list of lines.

Every line is made of plain characters, after the tab that opens the line of a row.  So the
line breaks of the text are exactly those between its lines, and nothing that a schema says
can add one.
-/

open Text (isPlain isSolid)

/-- A row of a const block or of a struct, by its cells. -/
structure Row where
  identifier : String
  type : String
  last : String
deriving DecidableEq

namespace Row

def cells (row : Row) : List String := [row.identifier, row.type, row.last]

def ofConstant (type : String) (constant : Constant) : Row :=
  ⟨constant.identifier, type, "= " ++ literal constant.value⟩

def ofField (field : StructField) : Row :=
  ⟨field.identifier, field.type.text, tag field.key⟩

end Row

namespace Declaration

def body : Declaration → String
  | .enum _ backing _ => backingType backing
  | .struct _ _ => "struct \x7b"

def rows : Declaration → List Row
  | .enum identifier _ constants => constants.map (Row.ofConstant identifier)
  | .struct _ fields => fields.map Row.ofField

def rowLines (declaration : Declaration) : List (List Char) :=
  Text.rowLines (declaration.rows.map Row.cells)

def typeLine (declaration : Declaration) : List Char :=
  ("type " ++ declaration.identifier ++ " " ++ declaration.body).toList

/-- The lines after the type line.  An enum without constants has none. -/
def laterLines (declaration : Declaration) : List (List Char) :=
  match declaration with
  | .enum _ _ [] => []
  | .enum _ _ (_ :: _) => [[], "const (".toList] ++ declaration.rowLines ++ [[')']]
  | .struct _ _ => declaration.rowLines ++ [['\x7d']]

def lines (declaration : Declaration) : List (List Char) :=
  declaration.typeLine :: declaration.laterLines

theorem constantRows_cells (type : String) (constants : List Constant) :
    (constants.map (Row.ofConstant type)).map Row.cells =
      constants.map (Constant.cells type) := by
  rw [List.map_map]
  rfl

theorem fieldRows_cells (fields : List StructField) :
    (fields.map Row.ofField).map Row.cells = fields.map StructField.cells := by
  rw [List.map_map]
  rfl

theorem toList_text (declaration : Declaration) :
    declaration.text.toList = Text.unlines declaration.lines := by
  match declaration with
  | .enum identifier backing [] =>
      simp [text, lines, typeLine, laterLines, body, Declaration.identifier]
  | .enum identifier backing (constant :: constants) =>
      rw [lines, laterLines, rowLines, rows, constantRows_cells]
      simp [text, typeLine, body, Declaration.identifier, Text.toList_alignRows_eq_unlines,
        -Text.toList_alignRows]
  | .struct identifier fields =>
      rw [lines, laterLines, rowLines, rows, fieldRows_cells]
      simp [text, typeLine, body, Declaration.identifier, Text.toList_alignRows_eq_unlines,
        -Text.toList_alignRows]

end Declaration

namespace File

def packageLine (file : File) : List Char := ("package " ++ file.package).toList

def lines (file : File) : List (List Char) :=
  Text.lines banner.toList ++ [file.packageLine] ++
    file.declarations.flatMap fun declaration => [] :: declaration.lines

theorem toList_text (file : File) : file.text.toList = Text.unlines file.lines := by
  have block (declaration : Declaration) :
      ("\n" ++ declaration.text).toList = Text.unlines ([] :: declaration.lines) := by
    simp [Declaration.toList_text]
  simp [text, lines, packageLine, Text.unlines_lines, Text.toList_join_lines block]

end File

/-! Which files have plain lines. -/

section

variable {name : String}

theorem isIdentifier_of_package (accepted : isPackageIdentifier name = true) :
    isIdentifier name = true := by
  simp only [isPackageIdentifier, Bool.and_eq_true] at accepted
  exact accepted.1.1

theorem textIdentifier (identifier : isIdentifier name = true) :
    Text.isIdentifier [] name = true := by
  simp only [isIdentifier, Bool.and_eq_true] at identifier
  exact identifier.1.2

theorem identifier_solid (identifier : isIdentifier name = true) :
    ∀ c ∈ name.toList, isSolid c = true := by
  intro c member
  have continues := Text.continues_of_mem_identifier (textIdentifier identifier) c member
  exact Text.isSolid_of_continuesIdentifier continues

theorem identifier_plain (identifier : isIdentifier name = true) :
    ∀ c ∈ name.toList, isPlain c = true :=
  fun c member => Text.isPlain_of_isSolid (identifier_solid identifier c member)

end

/-- The type is built on an identifier, if it is built on a declared type. -/
def TypeExpr.Printable (type : TypeExpr) : Prop :=
  ∀ identifier, type.leaf = .declared identifier → isIdentifier identifier = true

theorem TypeExpr.text_solid {type : TypeExpr} (printable : type.Printable) :
    ∀ c ∈ type.text.toList, isSolid c = true := by
  induction type with
  | builtin type => cases type <;> exact List.all_eq_true.mp (by decide)
  | declared identifier => exact identifier_solid (printable identifier rfl)
  | slice element ih =>
      simp only [text, String.toList_append, List.forall_mem_append]
      exact ⟨List.all_eq_true.mp (by decide), ih printable⟩
  | pointer target ih =>
      simp only [text, String.toList_append, List.forall_mem_append]
      exact ⟨List.all_eq_true.mp (by decide), ih printable⟩

theorem TypeExpr.text_ne_nil {type : TypeExpr} (printable : type.Printable) :
    type.text.toList ≠ [] := by
  cases type with
  | builtin type => cases type <;> decide
  | declared identifier =>
      exact Text.ne_empty_of_identifier (textIdentifier (printable identifier rfl))
  | slice element => simp [text]
  | pointer target => simp [text]

/-- The cells before the last are words, and the last cell opens with a sign. -/
structure Row.Printable (row : Row) : Prop where
  identifier : ∀ c ∈ row.identifier.toList, isSolid c = true
  type : ∀ c ∈ row.type.toList, isSolid c = true
  type_ne_nil : row.type.toList ≠ []
  last : ∀ c ∈ row.last.toList, isPlain c = true
  last_head : row.last.toList.head? ≠ some ' '

theorem Row.Printable.plain {row : Row} (printable : row.Printable) :
    ∀ cell ∈ row.cells, ∀ c ∈ cell.toList, isPlain c = true := by
  simp only [cells, List.forall_mem_cons]
  exact ⟨fun c member => Text.isPlain_of_isSolid (printable.identifier c member),
    fun c member => Text.isPlain_of_isSolid (printable.type c member), printable.last, by simp⟩

theorem literal_plain (value : CaseValue) : ∀ c ∈ (literal value).toList, isPlain c = true := by
  cases value with
  | integer value => exact numeral_plain value
  | string text => exact stringLiteral_plain text

theorem Row.ofConstant_printable {type : String} {constant : Constant}
    (typed : isIdentifier type = true) (named : isIdentifier constant.identifier = true) :
    (Row.ofConstant type constant).Printable where
  identifier := identifier_solid named
  type := identifier_solid typed
  type_ne_nil := Text.ne_empty_of_identifier (textIdentifier typed)
  last := by
    simp only [ofConstant, String.toList_append, List.forall_mem_append]
    exact ⟨List.all_eq_true.mp (by decide), literal_plain constant.value⟩
  last_head := by simp [ofConstant]

theorem isPlain_of_carried {c : Char} (carried : breaksTag c = false) : isPlain c = true := by
  simp only [breaksTag, Text.isControl, Bool.or_eq_false_iff, Bool.and_eq_false_iff,
    decide_eq_false_iff_not] at carried
  have notControl : 0x20 ≤ c.toNat := by omega
  have notDelete : c.toNat ≠ 0x7F := by omega
  simp [isPlain, notControl, notDelete]

theorem tag_plain {key : String} (carried : ∀ c ∈ key.toList, breaksTag c = false) :
    ∀ c ∈ (tag key).toList, isPlain c = true := by
  simp only [tag, String.toList_append, List.forall_mem_append]
  exact ⟨⟨List.all_eq_true.mp (by decide), fun c member => isPlain_of_carried (carried c member)⟩,
    List.all_eq_true.mp (by decide)⟩

structure StructField.Printable (field : StructField) : Prop where
  identifier : isIdentifier field.identifier = true
  type : field.type.Printable
  key : ∀ c ∈ field.key.toList, breaksTag c = false

theorem Row.ofField_printable {field : StructField} (printable : field.Printable) :
    (Row.ofField field).Printable where
  identifier := identifier_solid printable.identifier
  type := TypeExpr.text_solid printable.type
  type_ne_nil := TypeExpr.text_ne_nil printable.type
  last := tag_plain printable.key
  last_head := by simp [ofField, tag]

/-- Identifiers stand where they are expected, and keys fit into a tag. -/
def Declaration.Printable : Declaration → Prop
  | .enum identifier _ constants => isIdentifier identifier = true ∧
      ∀ constant ∈ constants, isIdentifier constant.identifier = true
  | .struct identifier fields => isIdentifier identifier = true ∧
      ∀ field ∈ fields, field.Printable

structure File.Printable (file : File) : Prop where
  package : isIdentifier file.package = true
  declarations : ∀ declaration ∈ file.declarations, declaration.Printable

theorem layFile_printable {model : Model} {symbols : Symbols} {package : String} {file : File}
    (laid : layFile model symbols package = .ok file) : file.Printable := by
  obtain ⟨rfl, accepted, related⟩ := layFile_eq_ok_iff.mp laid
  -- A field may refer to any type of the file, so its identifier was checked there.
  have declared : ∀ name identifier, model.declares name = true →
      symbols.type? name = some identifier → isIdentifier identifier = true := by
    intro name identifier declares found
    obtain ⟨decl, member, rfl⟩ := (model.declares_iff name).mp declares
    obtain ⟨declaration, _, laidDecl⟩ := forall₂_exists_left related member
    cases laidDecl with
    | enum symbol accepted _ =>
        cases symbol.symm.trans found
        exact isIdentifier_of_package accepted
    | struct symbol accepted _ _ =>
        cases symbol.symm.trans found
        exact isIdentifier_of_package accepted
  refine ⟨accepted, fun declaration member => ?_⟩
  obtain ⟨decl, _, laidDecl⟩ := forall₂_exists_right related member
  cases laidDecl with
  | enum _ accepted constants =>
      refine ⟨isIdentifier_of_package accepted, fun constant inside => ?_⟩
      obtain ⟨_, _, laidConstant⟩ := forall₂_exists_right constants inside
      exact isIdentifier_of_package laidConstant.declarable
  | struct _ accepted fields _ =>
      refine ⟨isIdentifier_of_package accepted, fun field inside => ?_⟩
      obtain ⟨_, _, laidField⟩ := forall₂_exists_right fields inside
      refine ⟨laidField.isIdentifier, fun identifier leaf => ?_, ?_⟩
      · have leafOf := fieldType_leaf laidField.typed
        rw [leaf] at leafOf
        generalize TypeRef.names _ = names at leafOf
        cases leafOf with
        | declared declares found => exact declared _ _ declares found
      · rw [laidField.key_eq]
        exact laidField.taggable

/-! The lines of a printable file. -/

/-- Nothing in the line moves down the page. -/
def Inline (line : List Char) : Prop := ∀ c ∈ line, c = '\t' ∨ isPlain c = true

namespace Inline

variable {line : List Char}

theorem of_plain (plain : ∀ c ∈ line, isPlain c = true) : Inline line :=
  fun c member => .inr (plain c member)

theorem of_all (plain : line.all isPlain = true) : Inline line :=
  of_plain (List.all_eq_true.mp plain)

theorem closed (inline : Inline line) : '\n' ∉ line := by
  intro member
  rcases inline '\n' member with tab | plain
  · cases tab
  · exact absurd plain (by decide)

theorem rowLine {row : Row} {widths : List Nat} (printable : row.Printable) :
    Inline (Text.rowLine widths row.cells) := by
  intro c member
  rcases List.mem_cons.mp member with tab | inside
  · exact .inl tab
  · rcases Text.mem_layCells inside with rfl | ⟨cell, present, inside⟩
    · exact .inr (by decide)
    · exact .inr (printable.plain cell present c inside)

end Inline

namespace Declaration

variable {declaration : Declaration}

theorem Printable.isIdentifier (printable : declaration.Printable) :
    isIdentifier declaration.identifier = true := by
  cases declaration with
  | enum identifier backing constants => exact printable.1
  | struct identifier fields => exact printable.1

theorem Printable.rows (printable : declaration.Printable) :
    ∀ row ∈ declaration.rows, row.Printable := by
  cases declaration with
  | enum identifier backing constants =>
      intro row member
      obtain ⟨constant, inside, rfl⟩ := List.mem_map.mp member
      exact Row.ofConstant_printable printable.1 (printable.2 constant inside)
  | struct identifier fields =>
      intro row member
      obtain ⟨field, inside, rfl⟩ := List.mem_map.mp member
      exact Row.ofField_printable (printable.2 field inside)

theorem backingType_plain (backing : Backing) :
    ∀ c ∈ (backingType backing).toList, isPlain c = true := by
  cases backing <;> exact List.all_eq_true.mp (by decide)

theorem typeLine_inline (printable : declaration.Printable) : Inline declaration.typeLine := by
  have body : ∀ c ∈ declaration.body.toList, isPlain c = true := by
    cases declaration with
    | enum identifier backing constants => exact backingType_plain backing
    | struct identifier fields =>
        exact List.all_eq_true.mp (by decide : "struct \x7b".toList.all isPlain = true)
  apply Inline.of_plain
  simp only [typeLine, String.toList_append, List.forall_mem_append]
  exact ⟨⟨⟨List.all_eq_true.mp (by decide), identifier_plain printable.isIdentifier⟩,
    List.all_eq_true.mp (by decide)⟩, body⟩

theorem rowLines_inline (printable : declaration.Printable) :
    ∀ line ∈ declaration.rowLines, Inline line := by
  intro line member
  obtain ⟨cells, laid, rfl⟩ := List.mem_map.mp member
  obtain ⟨row, inside, rfl⟩ := List.mem_map.mp laid
  exact Inline.rowLine (printable.rows row inside)

theorem lines_inline (printable : declaration.Printable) :
    ∀ line ∈ declaration.lines, Inline line := by
  have rows := rowLines_inline printable
  rw [lines, List.forall_mem_cons]
  refine ⟨typeLine_inline printable, ?_⟩
  match declaration with
  | .enum _ _ [] => simp [laterLines]
  | .enum _ _ (_ :: _) =>
      simp only [laterLines, List.forall_mem_append, List.forall_mem_cons]
      exact ⟨⟨⟨.of_all (by decide), .of_all (by decide), by simp⟩, rows⟩,
        .of_all (by decide), by simp⟩
  | .struct _ _ =>
      simp only [laterLines, List.forall_mem_append, List.forall_mem_cons]
      exact ⟨rows, .of_all (by decide), by simp⟩

end Declaration

namespace File

variable {file : File}

theorem lines_inline (printable : file.Printable) : ∀ line ∈ file.lines, Inline line := by
  have banner : ∀ line ∈ Text.lines banner.toList, line.all isPlain = true := by
    decide +kernel
  have package : ∀ c ∈ file.packageLine, isPlain c = true := by
    simp only [packageLine, String.toList_append, List.forall_mem_append]
    exact ⟨List.all_eq_true.mp (by decide), identifier_plain printable.package⟩
  simp only [lines, List.forall_mem_append, List.forall_mem_singleton, List.forall_mem_flatMap,
    List.forall_mem_cons]
  refine ⟨⟨fun line member => .of_all (banner line member), .of_plain package⟩, ?_⟩
  intro declaration member
  exact ⟨.of_plain (by simp), Declaration.lines_inline (printable.declarations _ member)⟩

/-- What a printable file says on each line, and nothing after the last line break. -/
theorem lines_toList_text (printable : file.Printable) :
    Text.lines file.text.toList = file.lines ++ [[]] := by
  rw [toList_text]
  exact Text.lines_unlines fun line member => (lines_inline printable line member).closed

end File

end WireSchema.Go
