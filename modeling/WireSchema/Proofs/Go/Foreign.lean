import WireSchema.Proofs.Acceptance
import WireSchema.Proofs.Go.Lines

namespace WireSchema

/-! Characters of a Go file that only a schema can bring in.

The notation of Go is ASCII, and identifiers add letters.  Every other character of a file is
foreign to the notation and stands in a string literal or in a tag, where it is written as it is.
So the foreign characters of a file are those of the string values and the keys of its schema,
in their order, none lost and none added.  The byte order mark is foreign, and no Go file can be
read that has one behind its first character.
-/

def CaseValue.text? : CaseValue → Option String
  | .integer _ => none
  | .string text => some text

/-- The texts of a type that are data and no names: string values and keys. -/
def TypeDecl.payload : TypeDecl → List String
  | .enum decl => decl.cases.filterMap (·.value.text?)
  | .record decl => decl.fields.map Field.key

namespace Go

def isForeign (c : Char) : Bool := 0x80 ≤ c.toNat && !Text.isLetter c

/-- What is left of a text without the characters that the notation of Go uses. -/
def foreignPart (text : List Char) : List Char := text.filter isForeign

/-- The foreign characters of several texts, one text after the other. -/
def foreignParts (texts : List String) : List Char :=
  texts.flatMap fun text => foreignPart text.toList

@[simp] theorem foreignPart_nil : foreignPart [] = [] := rfl

@[simp] theorem foreignPart_append (left right : List Char) :
    foreignPart (left ++ right) = foreignPart left ++ foreignPart right :=
  List.filter_append left right

@[simp] theorem foreignParts_nil : foreignParts [] = [] := rfl

@[simp] theorem foreignParts_cons (text : String) (rest : List String) :
    foreignParts (text :: rest) = foreignPart text.toList ++ foreignParts rest := rfl

theorem foreignPart_cons_of_not {c : Char} (native : isForeign c = false) (rest : List Char) :
    foreignPart (c :: rest) = foreignPart rest :=
  List.filter_cons_of_neg (by simp [native])

theorem foreignPart_flatMap (items : List α) (text : α → List Char) :
    foreignPart (items.flatMap text) = items.flatMap fun item => foreignPart (text item) :=
  List.filter_flatMap

theorem mem_foreignPart_iff {c : Char} {text : List Char} (foreign : isForeign c = true) :
    c ∈ foreignPart text ↔ c ∈ text := by
  rw [foreignPart, List.mem_filter, and_iff_left foreign]

theorem isForeign_of_small {c : Char} (small : c.toNat < 0x80) : isForeign c = false := by
  have notLarge : ¬ 0x80 ≤ c.toNat := by omega
  simp [isForeign, notLarge]

theorem foreignPart_of_small {text : List Char} (small : ∀ c ∈ text, c.toNat < 0x80) :
    foreignPart text = [] :=
  List.filter_eq_nil_iff.mpr fun c member => by simp [isForeign_of_small (small c member)]

theorem small_of_isAlphanum {c : Char} (word : c.isAlphanum = true) : c.toNat < 0x80 := by
  have range := Text.range_of_isAlphanum word
  omega

theorem foreignPart_identifier {name : String} (identifier : isIdentifier name = true) :
    foreignPart name.toList = [] := by
  refine List.filter_eq_nil_iff.mpr fun c member => ?_
  have continues := Text.continues_of_mem_identifier (textIdentifier identifier) c member
  simp only [Text.continuesIdentifier, Text.opensIdentifier, List.contains_nil, Bool.or_false,
    Bool.or_eq_true, beq_iff_eq] at continues
  obtain (letter | rfl) | digit := continues
  · simp [isForeign, letter]
  · decide
  · have small := small_of_isAlphanum (Text.isAlphanum_of_isDigit digit)
    simp [isForeign_of_small small]

theorem foreignPart_type {type : TypeExpr} (printable : type.Printable) :
    foreignPart type.text.toList = [] := by
  induction type with
  | builtin type => cases type <;> decide
  | declared identifier => exact foreignPart_identifier (printable identifier rfl)
  | slice element ih =>
      have brackets : foreignPart "[]".toList = [] := by decide
      rw [TypeExpr.text, String.toList_append, foreignPart_append, brackets, ih printable,
        List.append_nil]
  | pointer target ih =>
      have star : foreignPart "*".toList = [] := by decide
      rw [TypeExpr.text, String.toList_append, foreignPart_append, star, ih printable,
        List.append_nil]

theorem foreignPart_numeral (value : Int64) : foreignPart (numeral value).toList = [] := by
  refine foreignPart_of_small fun c member => ?_
  cases mem_numeral member with
  | inl digit => exact small_of_isAlphanum (Text.isAlphanum_of_isDigit digit)
  | inr minus => exact minus ▸ by decide

theorem small_of_shortEscape? {c letter : Char} (short : Text.shortEscape? c = some letter) :
    c.toNat < 0x80 := by
  unfold Text.shortEscape? at short
  split at short <;> first | decide | cases short

theorem foreignPart_escape (c : Char) : foreignPart (escape c) = foreignPart [c] := by
  by_cases small : c.toNat < 0x80
  · have before : foreignPart [c] = [] := foreignPart_of_small (by simpa using small)
    rw [before, escape_eq]
    refine foreignPart_of_small fun written member => ?_
    obtain letter | ⟨digit, low, rfl⟩ | ⟨rfl, _⟩ := Text.mem_escapeByCode member
    · have letters : ['\\', '"', 'n', 'r', 't', 'x'].all (·.toNat < 0x80) = true := by decide
      exact of_decide_eq_true (List.all_eq_true.mp letters written letter)
    · have digits : ∀ digit < 16, (Nat.digitChar digit).toNat < 0x80 := by decide
      exact digits digit low
    · exact small
  · obtain ⟨letter, short, _⟩ | ⟨needed, _⟩ | ⟨_, form⟩ := Text.escapeByCode_cases
      (fun c => c.toNat < 0x20 || c.toNat == 0x7F) 'x' 2 c
    · exact absurd (small_of_shortEscape? short) small
    · simp only [Bool.or_eq_true, decide_eq_true_eq, beq_iff_eq] at needed
      omega
    · rw [escape_eq, form]

theorem foreignPart_stringLiteral (text : String) :
    foreignPart (stringLiteral text).toList = foreignPart text.toList := by
  have inside : foreignPart (text.toList.flatMap escape) = foreignPart text.toList := by
    rw [foreignPart_flatMap]
    induction text.toList with
    | nil => rfl
    | cons c rest ih =>
        rw [List.flatMap_cons, ih, foreignPart_escape, ← foreignPart_append, List.singleton_append]
  have quote : foreignPart ['"'] = [] := by decide
  rw [stringLiteral, Text.toList_quote, Text.quoteChars, foreignPart_cons_of_not (by decide),
    foreignPart_append, inside, quote, List.append_nil]

theorem foreignPart_literal (value : CaseValue) :
    foreignPart (literal value).toList = foreignParts value.text?.toList := by
  cases value with
  | integer value => exact foreignPart_numeral value
  | string text => simp [literal, CaseValue.text?, foreignPart_stringLiteral]

theorem foreignPart_tag (key : String) : foreignPart (tag key).toList = foreignPart key.toList := by
  have opening : foreignPart "\x60json:\"".toList = [] := by decide
  have closing : foreignPart "\"\x60".toList = [] := by decide
  rw [tag, String.toList_append, String.toList_append, foreignPart_append, foreignPart_append,
    opening, closing, List.nil_append, List.append_nil]

theorem foreignPart_layCells (widths : List Nat) (row : List String) :
    foreignPart (Text.layCells widths row) = foreignParts row := by
  have blanks (count : Nat) : foreignPart (List.replicate count ' ') = [] := by
    refine foreignPart_of_small fun c member => ?_
    rw [List.eq_of_mem_replicate member]
    decide
  fun_induction Text.layCells widths row with
  | case1 => rfl
  | case2 _ cell => simp
  | case3 widths cell rest _ ih => simp [blanks, ih]

theorem foreignPart_rowLine (widths : List Nat) (row : List String) :
    foreignPart (Text.rowLine widths row) = foreignParts row := by
  rw [Text.rowLine, foreignPart_cons_of_not (by decide), foreignPart_layCells]

theorem foreignPart_unlines (lines : List (List Char)) :
    foreignPart (Text.unlines lines) = lines.flatMap foreignPart := by
  have lineBreak : foreignPart ['\n'] = [] := by decide
  simp only [Text.unlines, foreignPart_flatMap, foreignPart_append, lineBreak, List.append_nil]

theorem Row.foreignParts_ofConstant {type : String} {constant : Constant}
    (typed : isIdentifier type = true) (named : isIdentifier constant.identifier = true) :
    foreignParts (ofConstant type constant).cells = foreignParts constant.value.text?.toList := by
  have sign : foreignPart "= ".toList = [] := by decide
  have value : foreignPart ("= " ++ literal constant.value).toList =
      foreignParts constant.value.text?.toList := by
    rw [String.toList_append, foreignPart_append, sign, foreignPart_literal, List.nil_append]
  simp only [ofConstant, cells, foreignParts_cons, foreignParts_nil, value,
    foreignPart_identifier named, foreignPart_identifier typed, List.nil_append, List.append_nil]

theorem Row.foreignParts_ofField {field : StructField} (printable : field.Printable) :
    foreignParts (ofField field).cells = foreignPart field.key.toList := by
  simp only [ofField, cells, foreignParts_cons, foreignParts_nil, foreignPart_tag,
    foreignPart_identifier printable.identifier, foreignPart_type printable.type,
    List.nil_append, List.append_nil]

namespace Declaration

variable {declaration : Declaration}

/-- The texts of a declaration that are data and no names. -/
def payload : Declaration → List String
  | .enum _ _ constants => constants.filterMap (·.value.text?)
  | .struct _ fields => fields.map StructField.key

theorem foreignPart_rowLines (printable : declaration.Printable) :
    declaration.rowLines.flatMap foreignPart = foreignParts declaration.payload := by
  rw [rowLines, Text.rowLines, List.flatMap_map, List.flatMap_map, foreignParts]
  simp only [foreignPart_rowLine]
  cases declaration with
  | enum identifier backing constants =>
      rw [rows, payload, List.flatMap_map, List.filterMap_eq_flatMap_toList, List.flatMap_assoc]
      exact List.flatMap_congr fun constant member =>
        Row.foreignParts_ofConstant printable.1 (printable.2 constant member)
  | struct identifier fields =>
      rw [rows, payload, List.flatMap_map, List.flatMap_map]
      exact List.flatMap_congr fun field member =>
        Row.foreignParts_ofField (printable.2 field member)

theorem foreignPart_typeLine (printable : declaration.Printable) :
    foreignPart declaration.typeLine = [] := by
  have keyword : foreignPart "type ".toList = [] := by decide
  have blank : foreignPart " ".toList = [] := by decide
  have body : foreignPart declaration.body.toList = [] := by
    cases declaration with
    | enum identifier backing constants =>
        cases backing with
        | integer => exact (by decide : foreignPart "int".toList = [])
        | string => exact (by decide : foreignPart "string".toList = [])
    | struct identifier fields => exact (by decide : foreignPart "struct \x7b".toList = [])
  simp only [typeLine, String.toList_append, foreignPart_append, keyword, blank, body,
    foreignPart_identifier printable.isIdentifier, List.append_nil]

theorem foreignPart_lines (printable : declaration.Printable) :
    declaration.lines.flatMap foreignPart = foreignParts declaration.payload := by
  have opens : foreignPart "const (".toList = [] := by decide
  have closes : foreignPart [')'] = [] := by decide
  have ends : foreignPart ['\x7d'] = [] := by decide
  rw [lines, List.flatMap_cons, foreignPart_typeLine printable, List.nil_append,
    ← foreignPart_rowLines printable]
  cases declaration with
  | enum identifier backing constants =>
      cases constants with
      | nil => rfl
      | cons constant constants =>
          simp only [laterLines, List.flatMap_append, List.flatMap_cons, List.flatMap_nil,
            foreignPart_nil, opens, closes, List.nil_append, List.append_nil]
  | struct identifier fields =>
      simp only [laterLines, List.flatMap_append, List.flatMap_cons, List.flatMap_nil, ends,
        List.append_nil]

end Declaration

theorem File.foreignPart_text {file : File} (printable : file.Printable) :
    foreignPart file.text.toList =
      foreignParts (file.declarations.flatMap Declaration.payload) := by
  have banner : (Text.lines banner.toList).flatMap foreignPart = [] := by decide +kernel
  have keyword : foreignPart "package ".toList = [] := by decide
  have package : foreignPart file.packageLine = [] := by
    rw [packageLine, String.toList_append, foreignPart_append, keyword, List.nil_append,
      foreignPart_identifier printable.package]
  rw [toList_text, foreignPart_unlines, lines]
  simp only [List.flatMap_append, banner, List.flatMap_cons, List.flatMap_nil, package,
    List.nil_append, List.append_nil, List.flatMap_assoc, foreignPart_nil, foreignParts]
  exact List.flatMap_congr fun declaration member =>
    Declaration.foreignPart_lines (printable.declarations declaration member)

section

variable {model : Model}

theorem Laid.payload_eq {symbols : Symbols} {decl : TypeDecl} {declaration : Declaration}
    (laid : Laid model symbols decl declaration) : decl.payload = declaration.payload := by
  cases laid with
  | enum _ _ related =>
      have values := forall₂_map_eq_iff.mp (related.imp fun _ _ lays => lays.value_eq.symm)
      have texts := congrArg (List.filterMap CaseValue.text?) values
      rwa [List.filterMap_map, List.filterMap_map] at texts
  | struct _ _ related _ =>
      exact forall₂_map_eq_iff.mp (related.imp fun _ _ lays => lays.key_eq.symm)

theorem foreignPart_generated {options : GoOptions} {generated : GeneratedFile}
    (success : generate model (.go options) = .ok generated) :
    foreignPart generated.content.toList =
      foreignParts (model.decls.flatMap TypeDecl.payload) := by
  obtain ⟨symbols, file, _, laid, rfl⟩ := generate_go_eq_ok_iff.mp success
  obtain ⟨_, _, related⟩ := layFile_eq_ok_iff.mp laid
  have payloads := forall₂_map_eq_iff.mp (related.imp fun _ _ lays => lays.payload_eq)
  rw [File.foreignPart_text (layFile_printable laid), List.flatMap_def, List.flatMap_def, payloads]

/-- The byte order mark comes into a file with a string value or a key. -/
theorem byteOrderMark_mem_iff {options : GoOptions} {generated : GeneratedFile}
    (success : generate model (.go options) = .ok generated) :
    '\uFEFF' ∈ generated.content.toList ↔
      ∃ text ∈ model.decls.flatMap TypeDecl.payload, '\uFEFF' ∈ text.toList := by
  have foreign : isForeign '\uFEFF' = true := by decide +kernel
  rw [← mem_foreignPart_iff foreign, foreignPart_generated success, foreignParts,
    List.mem_flatMap]
  simp only [mem_foreignPart_iff foreign]

theorem nul_notMem_text {symbols : Symbols} {package : String} {file : File}
    (laid : layFile model symbols package = .ok file) : '\x00' ∉ file.text.toList := by
  intro member
  rw [File.toList_text] at member
  cases Text.mem_unlines member with
  | inl lineBreak => exact absurd lineBreak (by decide)
  | inr inLine =>
      obtain ⟨line, present, inside⟩ := inLine
      cases File.lines_inline (layFile_printable laid) line present _ inside with
      | inl tab => exact absurd tab (by decide)
      | inr plain => exact absurd plain (by decide)

end

end Go

/-- A Go file never holds the character that no Go file may hold.  The mark that a Go file may
hold at its beginning only stands in it if a string value or a key of the schema brings it
there. -/
theorem generate_go_byteOrderMark {model : Model} {options : GoOptions}
    {generated : GeneratedFile} (success : generate model (.go options) = .ok generated) :
    '\x00' ∉ generated.content.toList ∧
      ('\uFEFF' ∈ generated.content.toList ↔
        ∃ text ∈ model.decls.flatMap TypeDecl.payload, '\uFEFF' ∈ text.toList) := by
  refine ⟨?_, Go.byteOrderMark_mem_iff success⟩
  obtain ⟨symbols, file, _, laid, rfl⟩ := generate_go_eq_ok_iff.mp success
  exact Go.nul_notMem_text laid

/-- One value is the byte order mark, and one is the character zero. -/
def marked : Model where
  decls := [.enum ⟨"Mark", .string, [⟨"Order", .string "\uFEFF"⟩, ⟨"Zero", .string "\x00"⟩]⟩]
  valid := by decide

theorem generate_marked : ∃ generated, generate marked (.go {}) = .ok generated := by
  have resolved : resolve Go.naming marked = .ok ⟨.go, [⟨.type "Mark", "Mark"⟩,
      ⟨.member "Mark" "Order", "Order"⟩, ⟨.member "Mark" "Zero", "Zero"⟩]⟩ := by
    decide +kernel
  have recordless : marked.records = [] := by decide
  have accepted : Go.Accepts marked {} :=
    ⟨by decide +kernel, ⟨_, resolved, by decide +kernel⟩, by simp [recordless]⟩
  exact Go.generate_exists_iff.mpr accepted

theorem marked_byteOrderMark :
    ∃ generated, generate marked (.go {}) = .ok generated ∧
      '\x00' ∉ generated.content.toList ∧
      ('\uFEFF' ∈ generated.content.toList ↔
        ∃ text ∈ marked.decls.flatMap TypeDecl.payload, '\uFEFF' ∈ text.toList) := by
  obtain ⟨generated, success⟩ := generate_marked
  exact ⟨generated, success, generate_go_byteOrderMark success⟩

/-- A file is generated that has the mark inside a string literal. -/
theorem marked_unreadable :
    ∃ generated, generate marked (.go {}) = .ok generated ∧
      '\uFEFF' ∈ generated.content.toList := by
  obtain ⟨generated, success⟩ := generate_marked
  have brought : ∃ text ∈ marked.decls.flatMap TypeDecl.payload, '\uFEFF' ∈ text.toList :=
    ⟨"\uFEFF", by decide, by decide⟩
  exact ⟨generated, success, (Go.byteOrderMark_mem_iff success).mpr brought⟩

end WireSchema
