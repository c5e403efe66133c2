import WireSchema.Text.Columns

namespace WireSchema.Text

/-! Lines and words of a text, and how they are read back.

A text that was put together from lines gives these lines back when no line holds a line
break.  The words of a line are kept apart by any number of spaces, so columns can be read
back without knowing how wide they are.
-/

/-- The lines one below the other, each of them ended by a line break. -/
def unlines (lines : List (List Char)) : List Char :=
  lines.flatMap (· ++ ['\n'])

@[simp] theorem unlines_nil : unlines [] = [] := rfl

@[simp] theorem unlines_cons (line : List Char) (rest : List (List Char)) :
    unlines (line :: rest) = line ++ '\n' :: unlines rest := by
  simp [unlines]

@[simp] theorem unlines_append (left right : List (List Char)) :
    unlines (left ++ right) = unlines left ++ unlines right := by
  simp [unlines]

theorem unlines_flatMap {f : α → List (List Char)} (items : List α) :
    unlines (items.flatMap f) = items.flatMap fun item => unlines (f item) := by
  simp [unlines, List.flatMap_assoc]

/-- Texts that are lines each, one below the other. -/
theorem toList_join_lines {items : List α} {text : α → String} {content : α → List (List Char)}
    (spelled : ∀ item, (text item).toList = unlines (content item)) :
    (String.join (items.map text)).toList = unlines (items.flatMap content) := by
  rw [String.toList_join, List.flatMap_map, unlines_flatMap]
  simp only [spelled]

/-- The last element is what follows the last line break. -/
def lines (text : List Char) : List (List Char) := text.splitOn '\n'

theorem lines_unlines {content : List (List Char)} (closed : ∀ line ∈ content, '\n' ∉ line) :
    lines (unlines content) = content ++ [[]] := by
  induction content with
  | nil => rfl
  | cons line rest ih =>
      rw [lines, unlines_cons, List.splitOn_append_cons_self_of_not_mem (closed line (by simp))]
      have following := ih fun other member => closed other (by simp [member])
      rw [lines] at following
      rw [following, List.cons_append]

/-- Only the ends of the lines are line breaks. -/
theorem count_unlines {content : List (List Char)} (closed : ∀ line ∈ content, '\n' ∉ line) :
    (unlines content).count '\n' = content.length := by
  induction content with
  | nil => rfl
  | cons line rest ih =>
      rw [List.forall_mem_cons] at closed
      have inside := List.count_eq_zero.mpr closed.1
      rw [unlines_cons, List.count_append, inside, List.count_cons_self, ih closed.2,
        List.length_cons, Nat.zero_add]

theorem mem_unlines {content : List (List Char)} {c : Char} (member : c ∈ unlines content) :
    c = '\n' ∨ ∃ line ∈ content, c ∈ line := by
  obtain ⟨line, present, inside⟩ := List.mem_flatMap.mp member
  rcases List.mem_append.mp inside with inLine | last
  · exact .inr ⟨line, present, inLine⟩
  · exact .inl (List.mem_singleton.mp last)

theorem unlines_lines (text : List Char) : unlines (lines text) = text ++ ['\n'] := by
  have joined : ∀ content : List (List Char), content ≠ [] →
      unlines content = ['\n'].intercalate content ++ ['\n'] := by
    intro content nonempty
    induction content with
    | nil => exact absurd rfl nonempty
    | cons line rest ih =>
        cases rest with
        | nil => simp
        | cons next rest =>
            rw [unlines_cons, ih (by simp), List.intercalate_cons_cons]
            simp
  rw [lines, joined _ (List.splitOn_ne_nil _ _), List.intercalate_splitOn]

def rowLine (widths : List Nat) (row : List String) : List Char :=
  '\t' :: layCells widths row

def rowLines (rows : List (List String)) : List (List Char) :=
  rows.map (rowLine (columnWidths rows))

theorem toList_alignRows_eq_unlines (rows : List (List String)) :
    (alignRows rows).toList = unlines (rowLines rows) := by
  rw [toList_alignRows, unlines, rowLines, List.flatMap_map]
  rfl

/-- The cells are separated by runs of spaces, and nothing follows the last one. -/
theorem layCells_three (widths : List Nat) (first second third : String) :
    ∃ left right, layCells widths [first, second, third] =
      first.toList ++ List.replicate (left + 1) ' ' ++
        (second.toList ++ List.replicate (right + 1) ' ' ++ third.toList) :=
  ⟨_, _, rfl⟩

theorem mem_layCells {widths : List Nat} {row : List String} {c : Char}
    (member : c ∈ layCells widths row) : c = ' ' ∨ ∃ cell ∈ row, c ∈ cell.toList := by
  fun_induction layCells widths row with
  | case1 => cases member
  | case2 _ cell => exact .inr ⟨cell, List.mem_singleton_self cell, member⟩
  | case3 widths cell rest _ ih =>
      simp only [List.mem_append, List.mem_replicate] at member
      rcases member with (inside | ⟨_, blank⟩) | later
      · exact .inr ⟨cell, List.mem_cons_self, inside⟩
      · exact .inl blank
      · rcases ih later with blank | ⟨other, below, inside⟩
        · exact .inl blank
        · exact .inr ⟨other, List.mem_cons_of_mem _ below, inside⟩

/-- The first word, and what follows the spaces after it. -/
def splitWord (chars : List Char) : List Char × List Char :=
  (chars.takeWhile (· != ' '), (chars.dropWhile (· != ' ')).dropWhile (· == ' '))

theorem splitWord_append {word rest : List Char} (spaces : Nat) (solid : ' ' ∉ word)
    (starts : rest.head? ≠ some ' ') :
    splitWord (word ++ List.replicate (spaces + 1) ' ' ++ rest) = (word, rest) := by
  have inWord : ∀ c ∈ word, (c != ' ') = true := by
    intro c member
    simpa using fun same : c = ' ' => solid (same ▸ member)
  have blanks : (List.replicate (spaces + 1) ' ' ++ rest).dropWhile (· == ' ') = rest := by
    rw [List.dropWhile_append_of_pos (by simp)]
    cases rest with
    | nil => rfl
    | cons c rest =>
        have visible : c ≠ ' ' := by simpa using starts
        rw [List.dropWhile_cons_of_neg (by simpa using visible)]
  rw [splitWord, List.append_assoc, List.takeWhile_append_of_pos inWord,
    List.dropWhile_append_of_pos inWord]
  have noneLeft : (List.replicate (spaces + 1) ' ' ++ rest).takeWhile (· != ' ') = [] := by
    simp [List.replicate_succ]
  have allLeft : (List.replicate (spaces + 1) ' ' ++ rest).dropWhile (· != ' ') =
      List.replicate (spaces + 1) ' ' ++ rest := by
    simp [List.replicate_succ]
  rw [noneLeft, allLeft, blanks, List.append_nil]

end WireSchema.Text
