import Mathlib.Algebra.Ring.Nat
import Mathlib.Data.List.Forall2
import Mathlib.Data.Nat.PSub
import WireSchema.Proofs.Text.Lines

namespace WireSchema.Text

/-! Where the cells of aligned rows stand.

A column is as wide as its widest cell, of those that do not end their row.  So it starts at
the same offset in every line that has it, and at least one of its cells leaves a single space
behind it.

Beside the layout stands a second form of it, which keeps the widths in a list with one place
for each column and gives up where a place is missing or where a cell is wider than its
column.  It never gives up, and both forms print the same.
-/

/-- The length of the cell in this column, unless the row has none there or ends with it. -/
def paddedLength? (column : Nat) (row : List String) : Option Nat :=
  row.dropLast[column]?.map String.length

def columnWidth (rows : List (List String)) (column : Nat) : Nat :=
  (rows.filterMap (paddedLength? column)).max?.getD 0

/-- The offset of a column in its line, behind the tab and the columns to its left. -/
def columnStart (rows : List (List String)) (column : Nat) : Nat :=
  1 + ((List.range column).map fun earlier => columnWidth rows earlier + 1).sum

/-- The cells stand in a line from the offset on, each at the next of `starts`.  Spaces follow
each of them but the last, and nothing follows the last. -/
inductive SetOut : (offset : Nat) → (cells : List String) → (starts : List Nat) →
    (line : List Char) → Prop where
  | none {offset : Nat} : SetOut offset [] [] []
  | last {offset : Nat} {cell : String} : SetOut offset [cell] [offset] cell.toList
  | more {offset spaces : Nat} {cell next : String} {rest : List String} {starts : List Nat}
      {line : List Char} : 0 < spaces →
      SetOut (offset + cell.length + spaces) (next :: rest) starts line →
      SetOut offset (cell :: next :: rest) (offset :: starts)
        (cell.toList ++ List.replicate spaces ' ' ++ line)

/-- A tab, and behind it the cells of the row, each at the start of its column. -/
def RowSetOut (rows : List (List String)) (row : List String) (line : List Char) : Prop :=
  ∃ cells, line = '\t' :: cells ∧
    SetOut 1 row ((List.range row.length).map (columnStart rows)) cells

theorem columnStart_succ (rows : List (List String)) (column : Nat) :
    columnStart rows (column + 1) = columnStart rows column + columnWidth rows column + 1 := by
  simp only [columnStart, List.range_succ, List.map_append, List.sum_append, List.map_singleton,
    List.sum_singleton]
  omega

theorem columnWidth_cons (row : List String) (rows : List (List String)) (column : Nat) :
    columnWidth (row :: rows) column =
      max ((paddedLength? column row).getD 0) (columnWidth rows column) := by
  unfold columnWidth
  cases padded : paddedLength? column row with
  | none => simp [padded]
  | some length =>
      rw [List.filterMap_cons_some padded, List.max?_cons]
      cases (rows.filterMap (paddedLength? column)).max? <;> simp

theorem length_le_columnWidth {rows : List (List String)} {row : List String} {column : Nat}
    {cell : String} (member : row ∈ rows) (padded : row.dropLast[column]? = some cell) :
    cell.length ≤ columnWidth rows column := by
  apply List.le_max?_getD_of_mem
  exact List.mem_filterMap.mpr ⟨row, member, by simp [paddedLength?, padded]⟩

/-- Some cell of a column is as wide as the column. -/
theorem exists_length_eq_columnWidth {rows : List (List String)} {column : Nat}
    (followed : ∃ row ∈ rows, column + 1 < row.length) :
    ∃ row ∈ rows, ∃ cell, row.dropLast[column]? = some cell ∧
      cell.length = columnWidth rows column := by
  obtain ⟨row, member, longer⟩ := followed
  have inside : column < row.dropLast.length := by
    rw [List.length_dropLast]
    omega
  have listed : row.dropLast[column].length ∈ rows.filterMap (paddedLength? column) :=
    List.mem_filterMap.mpr
      ⟨row, member, by rw [paddedLength?, List.getElem?_eq_getElem inside, Option.map_some]⟩
  cases largest : (rows.filterMap (paddedLength? column)).max? with
  | none =>
      rw [List.max?_eq_none_iff.mp largest] at listed
      cases listed
  | some width =>
      obtain ⟨widest, present, found⟩ := List.mem_filterMap.mp (List.max?_mem largest)
      obtain ⟨cell, there, length⟩ := Option.map_eq_some_iff.mp found
      exact ⟨widest, present, cell, there, by rw [columnWidth, largest, length]; rfl⟩

theorem getD_widest (left right : List Nat) (column : Nat) :
    (widest left right)[column]?.getD 0 = max (left[column]?.getD 0) (right[column]?.getD 0) := by
  induction left generalizing right column with
  | nil => simp [widest]
  | cons width widths ih =>
      cases right with
      | nil => simp [widest]
      | cons other others =>
          cases column with
          | zero => simp [widest]
          | succ column => simpa [widest] using ih others column

theorem getD_columnWidths (rows : List (List String)) (column : Nat) :
    (columnWidths rows)[column]?.getD 0 = columnWidth rows column := by
  induction rows with
  | nil => rfl
  | cons row rows ih =>
      rw [columnWidths, getD_widest, ih, columnWidth_cons, paddedLength?, List.getElem?_map]

/-- Cells laid from some column on, where the widths are those of the columns and hold the
cells. -/
theorem setOut_layCells {rows : List (List String)} {cells : List String} {widths : List Nat}
    {column : Nat} (same : ∀ later, widths[later]?.getD 0 = columnWidth rows (column + later))
    (fits : ∀ later cell, cells.dropLast[later]? = some cell →
      cell.length ≤ columnWidth rows (column + later)) :
    SetOut (columnStart rows column) cells
      ((List.range' column cells.length).map (columnStart rows)) (layCells widths cells) := by
  fun_induction layCells widths cells generalizing column with
  | case1 => exact .none
  | case2 => exact .last
  | case3 widths cell rest others ih =>
      obtain ⟨next, rest, rfl⟩ := List.exists_cons_of_ne_nil others
      have width : widths.headD 0 = columnWidth rows column := by
        rw [List.headD_eq_head?_getD, List.head?_eq_getElem?, same 0, Nat.add_zero]
      have room : cell.length ≤ columnWidth rows column := fits 0 cell rfl
      have start : columnStart rows (column + 1) =
          columnStart rows column + cell.length + (columnWidth rows column - cell.length + 1) := by
        rw [columnStart_succ]
        omega
      have laid := @ih (column + 1)
        (fun later => by
          rw [List.getElem?_tail, same (later + 1), Nat.add_right_comm, Nat.add_assoc])
        (fun later other padded => by
          rw [Nat.add_right_comm, Nat.add_assoc]
          exact fits (later + 1) other padded)
      rw [start] at laid
      rw [List.length_cons, List.range'_succ, List.map_cons, width]
      exact .more (Nat.succ_pos _) laid

/-- The widths with the cells of one row taken in, from this column on. -/
def widenRow? (widths : List Nat) (column : Nat) : List String → Option (List Nat)
  | [] => some widths
  | [_] => some widths
  | cell :: next :: rest => do
      let width ← widths[column]?
      widenRow? (widths.set column (max width cell.length)) (column + 1) (next :: rest)

def widenRows? (widths : List Nat) : List (List String) → Option (List Nat)
  | [] => some widths
  | row :: rows => do
      let widths ← widenRow? widths 0 row
      widenRows? widths rows

/-- The cells of one row, from this column on. -/
def layCells? (widths : List Nat) (column : Nat) : List String → Option (List Char)
  | [] => some []
  | [cell] => some cell.toList
  | cell :: next :: rest => do
      let width ← widths[column]?
      let excess ← width.psub cell.length
      let line ← layCells? widths (column + 1) (next :: rest)
      some (cell.toList ++ List.replicate (excess + 1) ' ' ++ line)

def alignRows? (rows : List (List String)) : Option String := do
  let columns := (rows.map List.length).max?.getD 0
  let widths ← widenRows? (List.replicate columns 0) rows
  let lines ← rows.mapM (layCells? widths 0)
  some (String.ofList (unlines (lines.map ('\t' :: ·))))

/-- Every width that a row asks for is there.  The widths from its first column on grow as its
cells need, and those in front of it stay as they are. -/
theorem widenRow?_exists {widths : List Nat} {column : Nat} {row : List String}
    (inRange : column + row.length ≤ widths.length) :
    ∃ wider, widenRow? widths column row = some wider ∧ wider.length = widths.length ∧
      (∀ other < column, wider[other]? = widths[other]?) ∧
      ∀ later, wider[column + later]?.getD 0 =
        max (widths[column + later]?.getD 0) ((paddedLength? later row).getD 0) := by
  fun_induction widenRow? widths column row with
  | case1 widths column => exact ⟨widths, rfl, rfl, fun _ _ => rfl, by simp [paddedLength?]⟩
  | case2 widths column cell => exact ⟨widths, rfl, rfl, fun _ _ => rfl, by simp [paddedLength?]⟩
  | case3 widths column cell next rest ih =>
      rw [List.length_cons] at inRange
      have inside : column < widths.length := by omega
      obtain ⟨wider, widened, length, front, back⟩ := ih widths[column]
        (by rw [List.length_set]; omega)
      refine ⟨wider, by rw [List.getElem?_eq_getElem inside]; exact widened,
        by rw [length, List.length_set], ?_, ?_⟩
      · intro other before
        rw [front other (by omega), List.getElem?_set_ne (by omega)]
      · intro later
        cases later with
        | zero =>
            rw [Nat.add_zero, front column (Nat.lt_succ_self _), List.getElem?_set_self inside,
              List.getElem?_eq_getElem inside]
            rfl
        | succ later =>
            rw [← Nat.add_assoc, Nat.add_right_comm, back later, List.getElem?_set_ne (by omega)]
            rfl

theorem widenRows?_exists {widths : List Nat} {rows : List (List String)}
    (inRange : ∀ row ∈ rows, row.length ≤ widths.length) :
    ∃ wider, widenRows? widths rows = some wider ∧ wider.length = widths.length ∧
      ∀ column, wider[column]?.getD 0 =
        max (widths[column]?.getD 0) (columnWidth rows column) := by
  induction rows generalizing widths with
  | nil => exact ⟨widths, rfl, rfl, fun column => (Nat.max_zero _).symm⟩
  | cons row rows ih =>
      rw [List.forall_mem_cons] at inRange
      obtain ⟨middle, widened, length, _, each⟩ :=
        @widenRow?_exists widths 0 row (by rw [Nat.zero_add]; exact inRange.1)
      obtain ⟨wider, widenedRest, lengthRest, eachRest⟩ := ih (length ▸ inRange.2)
      refine ⟨wider, by rw [widenRows?, widened]; exact widenedRest, lengthRest.trans length, ?_⟩
      intro column
      have grown := each column
      rw [Nat.zero_add] at grown
      rw [eachRest column, grown, columnWidth_cons, Nat.max_assoc]

/-- Where every column has its width and no cell is wider than that, a row is laid as before. -/
theorem layCells?_eq_layCells {cells : List String}
    {widths others : List Nat} {column : Nat} (inRange : column + cells.length ≤ widths.length)
    (same : ∀ later, widths[column + later]?.getD 0 = others[later]?.getD 0)
    (fits : ∀ later cell, cells.dropLast[later]? = some cell →
      cell.length ≤ widths[column + later]?.getD 0) :
    layCells? widths column cells = some (layCells others cells) := by
  fun_induction layCells? widths column cells generalizing others with
  | case1 => rfl
  | case2 => rfl
  | case3 column cell next rest ih =>
      rw [List.length_cons] at inRange
      have inside : column < widths.length := by omega
      have room := fits 0 cell rfl
      have width := same 0
      rw [Nat.add_zero, List.getElem?_eq_getElem inside, Option.getD_some] at room width
      have laid := @ih others.tail (by omega)
        (fun later => by
          rw [Nat.add_right_comm, Nat.add_assoc, same (later + 1), List.getElem?_tail])
        (fun later other padded => by
          rw [Nat.add_right_comm, Nat.add_assoc]
          exact fits (later + 1) other padded)
      rw [layCells, List.headD_eq_head?_getD, List.head?_eq_getElem?, ← width,
        List.getElem?_eq_getElem inside]
      · simp only [Option.bind_eq_bind, Option.bind_some, Nat.psub_eq_sub room, laid]
      · exact List.cons_ne_nil _ _

theorem mapM_eq_some_map {step : α → Option β} {image : α → β} {items : List α}
    (each : ∀ item ∈ items, step item = some (image item)) :
    items.mapM step = some (items.map image) := by
  induction items with
  | nil => rfl
  | cons item items ih =>
      rw [List.forall_mem_cons] at each
      rw [List.mapM_cons, each.1, ih each.2]
      rfl

/-- Setting rows out never fails, and gives what the layout gives. -/
theorem alignRows?_eq_alignRows (rows : List (List String)) :
    alignRows? rows = some (alignRows rows) := by
  let columns := (rows.map List.length).max?.getD 0
  have inRange : ∀ row ∈ rows, row.length ≤ columns :=
    fun row member => List.le_max?_getD_of_mem (List.mem_map_of_mem member)
  obtain ⟨widths, widened, length, each⟩ := @widenRows?_exists (List.replicate columns 0) rows
    (by rw [List.length_replicate]; exact inRange)
  have width (column : Nat) : widths[column]?.getD 0 = columnWidth rows column := by
    have bare : (List.replicate columns 0)[column]?.getD 0 = 0 := by
      rw [List.getElem?_replicate]
      split <;> rfl
    rw [each column, bare, Nat.zero_max]
  have laid : rows.mapM (layCells? widths 0) = some (rows.map (layCells (columnWidths rows))) := by
    apply mapM_eq_some_map
    intro row member
    apply layCells?_eq_layCells
    · rw [Nat.zero_add, length, List.length_replicate]
      exact inRange row member
    · intro column
      rw [Nat.zero_add, width, getD_columnWidths]
    · intro column cell padded
      rw [Nat.zero_add, width]
      exact length_le_columnWidth member padded
  have printed : unlines ((rows.map (layCells (columnWidths rows))).map ('\t' :: ·)) =
      (alignRows rows).toList := by
    rw [toList_alignRows_eq_unlines, List.map_map]
    rfl
  rw [alignRows?, widened]
  simp only [Option.bind_eq_bind, Option.bind_some, laid, printed, String.ofList_toList]

theorem setOut_rowLines (rows : List (List String)) :
    List.Forall₂ (RowSetOut rows) rows (rowLines rows) := by
  rw [rowLines, List.forall₂_map_right_iff, List.forall₂_same]
  intro row member
  refine ⟨layCells (columnWidths rows) row, rfl, ?_⟩
  rw [List.range_eq_range']
  refine @setOut_layCells rows row _ 0 ?_ ?_
  · intro column
    rw [getD_columnWidths, Nat.zero_add]
  · intro column cell padded
    rw [Nat.zero_add]
    exact length_le_columnWidth member padded

theorem lines_alignRows {rows : List (List String)}
    (oneLine : ∀ row ∈ rows, ∀ cell ∈ row, '\n' ∉ cell.toList) :
    lines (alignRows rows).toList = rowLines rows ++ [[]] := by
  rw [toList_alignRows_eq_unlines]
  apply lines_unlines
  intro line member inside
  obtain ⟨row, present, rfl⟩ := List.mem_map.mp member
  rcases List.mem_cons.mp inside with tab | inside
  · cases tab
  · rcases mem_layCells inside with blank | ⟨cell, there, inside⟩
    · cases blank
    · exact oneLine row present cell there inside

/-- Rows of any lengths are set out without a failure, one to a line.  Each column starts
where the columns to its left need it to start, and not further on. -/
theorem alignRows_setOut (rows : List (List String)) :
    alignRows? rows = some (alignRows rows) ∧
    (∃ content, (alignRows rows).toList = unlines content ∧
      List.Forall₂ (RowSetOut rows) rows content ∧
      ((∀ row ∈ rows, ∀ cell ∈ row, '\n' ∉ cell.toList) →
        lines (alignRows rows).toList = content ++ [[]])) ∧
    ∀ column, (∃ row ∈ rows, column + 1 < row.length) →
      ∃ row ∈ rows, ∃ cell, row.dropLast[column]? = some cell ∧
        columnStart rows (column + 1) = columnStart rows column + cell.length + 1 := by
  refine ⟨alignRows?_eq_alignRows rows, ⟨rowLines rows, toList_alignRows_eq_unlines rows,
    setOut_rowLines rows, lines_alignRows⟩, ?_⟩
  intro column followed
  obtain ⟨row, member, cell, padded, widest⟩ := exists_length_eq_columnWidth followed
  exact ⟨row, member, cell, padded, by rw [columnStart_succ, widest]⟩

/-- Rows of four lengths.  The longest cell of the first column ends its row. -/
def ragged : List (List String) := [["Id", "żółw", "x"], [], ["", "a b"], ["Owner"]]

example : alignRows? ragged = some "\tId żółw x\n\t\n\t   a b\n\tOwner\n" := by decide +kernel

theorem ragged_setOut :
    alignRows? ragged = some (alignRows ragged) ∧
    (∀ row ∈ ragged, ∀ cell ∈ row, '\n' ∉ cell.toList) ∧
    (∃ content, (alignRows ragged).toList = unlines content ∧
      List.Forall₂ (RowSetOut ragged) ragged content ∧
      lines (alignRows ragged).toList = content ++ [[]]) ∧
    (∃ row ∈ ragged, 1 < row.length) ∧
    ∃ row ∈ ragged, ∃ cell, row.dropLast[0]? = some cell ∧
      columnStart ragged 1 = columnStart ragged 0 + cell.length + 1 := by
  have oneLine : ∀ row ∈ ragged, ∀ cell ∈ row, '\n' ∉ cell.toList := by decide +kernel
  have followed : ∃ row ∈ ragged, 1 < row.length := by decide
  obtain ⟨whole, ⟨content, printed, setOut, read⟩, tight⟩ := alignRows_setOut ragged
  exact ⟨whole, oneLine, ⟨content, printed, setOut, read oneLine⟩, followed, tight 0 followed⟩

end WireSchema.Text
