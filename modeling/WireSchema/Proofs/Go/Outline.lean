import WireSchema.Proofs.Go.Lines

namespace WireSchema.Go

/-! The declarations of a Go file, read off its text.

A line that opens with `type` starts a block, and a line that opens with a tab is a row of
the block above it.  Reading a printed file gives back what its declarations say, so what a
file declares can be said about the text alone.
-/

/-- A type line, and the rows below it up to the next type line. -/
structure Block where
  identifier : String
  body : String
  rows : List Row
deriving DecidableEq

def Declaration.block (declaration : Declaration) : Block :=
  ⟨declaration.identifier, declaration.body, declaration.rows⟩

/-- Any other block is one of an enum. -/
def Block.isStruct (block : Block) : Bool := block.body == "struct \x7b"

theorem Declaration.isStruct_enum (identifier : String) (backing : Backing)
    (constants : List Constant) :
    (Declaration.enum identifier backing constants).block.isStruct = false := by
  cases backing <;> simp [block, body, backingType, Block.isStruct]

theorem Declaration.isStruct_struct (identifier : String) (fields : List StructField) :
    (Declaration.struct identifier fields).block.isStruct = true := by
  simp [block, body, Block.isStruct]

inductive Line where
  | typed (identifier body : String)
  | row (row : Row)
  | other
deriving DecidableEq

def readRow (cells : List Char) : Row :=
  let first := Text.splitWord cells
  let second := Text.splitWord first.2
  ⟨String.ofList first.1, String.ofList second.1, String.ofList second.2⟩

def readTyped (rest : List Char) : Line :=
  let first := Text.splitWord rest
  .typed (String.ofList first.1) (String.ofList first.2)

def readLine : List Char → Line
  | '\t' :: cells => .row (readRow cells)
  | 't' :: 'y' :: 'p' :: 'e' :: ' ' :: rest => readTyped rest
  | _ => .other

/-- The rows above the first type line, and the blocks from there on. -/
def gather : List (List Char) → List Row × List Block
  | [] => ([], [])
  | line :: rest =>
      match readLine line with
      | .typed identifier body => ([], ⟨identifier, body, (gather rest).1⟩ :: (gather rest).2)
      | .row row => (row :: (gather rest).1, (gather rest).2)
      | .other => gather rest

def outline (text : String) : List Block := (gather (Text.lines text.toList)).2

theorem readRow_rowLine {row : Row} (printable : row.Printable) (widths : List Nat) :
    readRow (Text.layCells widths row.cells) = row := by
  obtain ⟨left, right, laid⟩ := Text.layCells_three widths row.identifier row.type row.last
  have typeStarts : (row.type.toList ++ List.replicate (right + 1) ' ' ++
      row.last.toList).head? ≠ some ' ' := by
    cases typed : row.type.toList with
    | nil => exact absurd typed printable.type_ne_nil
    | cons c rest =>
        have solid := printable.type c (typed ▸ List.mem_cons_self)
        intro blank
        cases blank
        exact absurd solid (by decide)
  have first := Text.splitWord_append left (Text.not_mem_of_isSolid printable.identifier) typeStarts
  have second := Text.splitWord_append right (Text.not_mem_of_isSolid printable.type)
    printable.last_head
  rw [readRow, Row.cells, laid, first, second]
  simp

theorem readLine_typeLine {declaration : Declaration} (printable : declaration.Printable) :
    readLine declaration.typeLine = .typed declaration.identifier declaration.body := by
  have bodyStarts : declaration.body.toList.head? ≠ some ' ' := by
    cases declaration with
    | enum identifier backing constants => cases backing <;> simp [Declaration.body, backingType]
    | struct identifier fields => simp [Declaration.body]
  have solid := Text.not_mem_of_isSolid (identifier_solid printable.isIdentifier)
  have words := Text.splitWord_append 0 solid bodyStarts
  have line : declaration.typeLine = 't' :: 'y' :: 'p' :: 'e' :: ' ' ::
      (declaration.identifier.toList ++ List.replicate 1 ' ' ++ declaration.body.toList) := by
    simp [Declaration.typeLine]
  rw [line, readLine, readTyped, words]
  simp

theorem gather_typed {line : List Char} {rest : List (List Char)} {identifier body : String}
    (read : readLine line = .typed identifier body) :
    gather (line :: rest) = ([], ⟨identifier, body, (gather rest).1⟩ :: (gather rest).2) := by
  simp only [gather, read]

theorem gather_others {others rest : List (List Char)}
    (read : ∀ line ∈ others, readLine line = .other) : gather (others ++ rest) = gather rest := by
  induction others with
  | nil => rfl
  | cons line later ih =>
      rw [List.forall_mem_cons] at read
      rw [List.cons_append, gather, read.1]
      exact ih read.2

/-- The columns of a block may be wider than its own rows need. -/
theorem gather_rows {rows : List Row} (printable : ∀ row ∈ rows, row.Printable)
    (widths : List Nat) (rest : List (List Char)) :
    gather (rows.map (fun row => Text.rowLine widths row.cells) ++ rest) =
      (rows ++ (gather rest).1, (gather rest).2) := by
  induction rows with
  | nil => rfl
  | cons row later ih =>
      rw [List.forall_mem_cons] at printable
      have read : readLine (Text.rowLine widths row.cells) = .row row := by
        rw [Text.rowLine, readLine, readRow_rowLine printable.1]
      rw [List.map_cons, List.cons_append, gather, read, ih printable.2]
      rfl

theorem gather_rowLines {declaration : Declaration} (printable : declaration.Printable)
    (rest : List (List Char)) :
    gather (declaration.rowLines ++ rest) =
      (declaration.rows ++ (gather rest).1, (gather rest).2) := by
  rw [Declaration.rowLines, Text.rowLines, List.map_map]
  exact gather_rows printable.rows _ rest

/-- The lines of a declaration are its block, when no row follows them. -/
theorem gather_declaration {declaration : Declaration} (printable : declaration.Printable)
    {rest : List (List Char)} (bare : (gather rest).1 = []) :
    gather (declaration.lines ++ rest) = ([], declaration.block :: (gather rest).2) := by
  have later : gather (declaration.laterLines ++ rest) = (declaration.rows, (gather rest).2) := by
    match declaration with
    | .enum identifier backing [] =>
        rw [Declaration.laterLines, List.nil_append]
        exact Prod.ext bare rfl
    | .enum identifier backing (constant :: constants) =>
        rw [Declaration.laterLines, List.append_assoc, List.append_assoc,
          gather_others (by decide), gather_rowLines printable, gather_others (by decide), bare,
          List.append_nil]
    | .struct identifier fields =>
        rw [Declaration.laterLines, List.append_assoc, gather_rowLines printable,
          gather_others (by decide), bare, List.append_nil]
  rw [Declaration.lines, List.cons_append, gather_typed (readLine_typeLine printable), later]
  rfl

theorem gather_declarations {declarations : List Declaration}
    (printable : ∀ declaration ∈ declarations, declaration.Printable) :
    gather (declarations.flatMap (fun declaration => [] :: declaration.lines) ++ [[]]) =
      ([], declarations.map Declaration.block) := by
  induction declarations with
  | nil => rfl
  | cons declaration later ih =>
      rw [List.forall_mem_cons] at printable
      have following := ih printable.2
      have block := gather_declaration printable.1 (congrArg Prod.fst following)
      rw [following] at block
      rw [List.flatMap_cons, List.append_assoc]
      exact (@gather_others [[]] _ (by decide)).trans block

/-- The text of a printable file says what its declarations say. -/
theorem outline_text {file : File} (printable : file.Printable) :
    outline file.text = file.declarations.map Declaration.block := by
  have banner : ∀ line ∈ Text.lines banner.toList, readLine line = .other := by
    decide +kernel
  have package : ∀ line ∈ [file.packageLine], readLine line = .other := by
    simp [File.packageLine, readLine]
  rw [outline, File.lines_toList_text printable, File.lines, List.append_assoc,
    List.append_assoc, gather_others banner, gather_others package,
    gather_declarations printable.declarations]

example : outline "type Role string\n\nconst (\n\tGuest    Role = \"a b\"\n\tTeamRole Role = 1\n)" =
    [⟨"Role", "string", [⟨"Guest", "Role", "= \"a b\""⟩, ⟨"TeamRole", "Role", "= 1"⟩]⟩] := by
  decide +kernel

end WireSchema.Go
