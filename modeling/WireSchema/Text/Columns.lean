namespace WireSchema.Text

/-! Rows of cells set in columns.

Every row opens with a tab and ends with a line break.  A cell that another cell of its
row follows is padded to the width of its column, plus one space.  The last cell of a
row is never padded and does not widen its column.
-/

/-- Position by position the larger of two numbers, or the only one there is. -/
def widest : List Nat → List Nat → List Nat
  | [], others => others
  | widths, [] => widths
  | width :: widths, other :: others => max width other :: widest widths others

/-- The width of each column: that of its widest cell among those that are not last in
their row. -/
def columnWidths : List (List String) → List Nat
  | [] => []
  | row :: rows => widest (row.dropLast.map String.length) (columnWidths rows)

def layCells : List Nat → List String → List Char
  | _, [] => []
  | _, [cell] => cell.toList
  | widths, cell :: rest =>
      cell.toList ++ List.replicate (widths.headD 0 - cell.length + 1) ' ' ++
        layCells widths.tail rest

def layRow (widths : List Nat) (row : List String) : List Char :=
  '\t' :: (layCells widths row ++ ['\n'])

def alignRows (rows : List (List String)) : String :=
  String.ofList (rows.flatMap (layRow (columnWidths rows)))

@[simp] theorem toList_alignRows (rows : List (List String)) :
    (alignRows rows).toList = rows.flatMap (layRow (columnWidths rows)) := by
  simp [alignRows]

end WireSchema.Text
