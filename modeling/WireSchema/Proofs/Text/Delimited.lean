import WireSchema.Go.Declaration
import WireSchema.Proofs.Text.Plain
import WireSchema.TypeScript.Declaration

namespace WireSchema

/-! Texts that say where they end.

Something printed in the middle of a line can be read back when the text after it cannot be
taken for more of it.  Words end at the first character that is none of theirs, and a text
between quotation marks ends by itself, because a mark inside it is always escaped.
-/

namespace Text

/-- Whatever follows two printed values, as long as it stops them, equal texts come from
equal values. -/
def Delimited (stops : List Char → Prop) (print : α → List Char) : Prop :=
  ∀ ⦃left right : α⦄ ⦃afterLeft afterRight : List Char⦄,
    stops afterLeft → stops afterRight →
    print left ++ afterLeft = print right ++ afterRight →
    left = right ∧ afterLeft = afterRight

section

variable {inRun : α → Bool} {run after : List α}

theorem takeWhile_run (inside : ∀ item ∈ run, inRun item = true)
    (stops : ∀ item ∈ after.head?, inRun item = false) : (run ++ after).takeWhile inRun = run := by
  rw [List.takeWhile_append_of_pos inside]
  cases after with
  | nil => simp
  | cons item after => simp [stops item rfl]

theorem dropWhile_run (inside : ∀ item ∈ run, inRun item = true)
    (stops : ∀ item ∈ after.head?, inRun item = false) : (run ++ after).dropWhile inRun = after := by
  rw [List.dropWhile_append_of_pos inside]
  cases after with
  | nil => simp
  | cons item after => simp [stops item rfl]

end

/-- Two runs end together when each is followed by an element that belongs to no run. -/
theorem append_inj_of_runs {inRun : α → Bool} {left right afterLeft afterRight : List α}
    (leftRun : ∀ item ∈ left, inRun item = true) (rightRun : ∀ item ∈ right, inRun item = true)
    (leftStops : ∀ item ∈ afterLeft.head?, inRun item = false)
    (rightStops : ∀ item ∈ afterRight.head?, inRun item = false)
    (same : left ++ afterLeft = right ++ afterRight) :
    left = right ∧ afterLeft = afterRight := by
  have runs := congrArg (List.takeWhile inRun) same
  have rests := congrArg (List.dropWhile inRun) same
  rw [takeWhile_run leftRun leftStops, takeWhile_run rightRun rightStops] at runs
  rw [dropWhile_run leftRun leftStops, dropWhile_run rightRun rightStops] at rests
  exact ⟨runs, rests⟩

/-- A separator whose first element belongs to no run stops every run. -/
theorem stops_of_separator {inRun : α → Bool} {separator : List α}
    (starts : separator.head?.any (fun item => !inRun item) = true) (after : List α) :
    ∀ item ∈ (separator ++ after).head?, inRun item = false := by
  cases separator with
  | nil => cases starts
  | cons first rest => simpa using starts

/-- Blank lines in front of blocks without blank lines tell where each block begins. -/
theorem flatMap_blank_injective {left right : List (List (List Char))}
    (leftFull : ∀ block ∈ left, [] ∉ block) (rightFull : ∀ block ∈ right, [] ∉ block)
    (same : left.flatMap ([] :: ·) = right.flatMap ([] :: ·)) : left = right := by
  have inBlock {block : List (List Char)} (full : [] ∉ block) :
      ∀ line ∈ block, (!line.isEmpty) = true := by
    intro line member
    cases line with
    | nil => exact absurd member full
    | cons c rest => rfl
  have blank (later : List (List (List Char))) :
      ∀ line ∈ (later.flatMap ([] :: ·)).head?, (!line.isEmpty) = false := by
    cases later <;> simp
  induction left generalizing right with
  | nil =>
      cases right with
      | nil => rfl
      | cons block later => simp at same
  | cons block later ih =>
      cases right with
      | nil => simp at same
      | cons other following =>
          rw [List.forall_mem_cons] at leftFull rightFull
          rw [List.flatMap_cons, List.flatMap_cons, List.cons_append, List.cons_append,
            List.cons.injEq] at same
          obtain ⟨blocks, rest⟩ := append_inj_of_runs (inBlock leftFull.1) (inBlock rightFull.1)
            (blank later) (blank following) same.2
          rw [blocks, ih leftFull.2 rightFull.2 rest]

theorem quoteChars_delimited {escape : Char → List Char} (code : IsCode escape) :
    Delimited (fun _ => True) (quoteChars escape) := by
  intro left right afterLeft afterRight _ _ same
  simp only [quoteChars, List.cons_append, List.append_assoc, List.cons.injEq,
    true_and] at same
  induction left generalizing right with
  | nil =>
      cases right with
      | nil => exact ⟨rfl, by simpa using same⟩
      | cons c right =>
          obtain ⟨first, rest, form, noQuote⟩ := code.opens c
          rw [List.flatMap_nil, List.nil_append, List.flatMap_cons, form] at same
          exact absurd (List.cons.inj same).1.symm noQuote
  | cons c left ih =>
      cases right with
      | nil =>
          obtain ⟨first, rest, form, noQuote⟩ := code.opens c
          rw [List.flatMap_nil, List.nil_append, List.flatMap_cons, form] at same
          exact absurd (List.cons.inj same).1 noQuote
      | cons d right =>
          rw [List.flatMap_cons, List.flatMap_cons, List.append_assoc, List.append_assoc] at same
          have head := code.injective same
          subst head
          obtain ⟨tails, after⟩ := ih (List.append_cancel_left same)
          exact ⟨by rw [tails], after⟩

theorem quote_delimited {escape : Char → List Char} (code : IsCode escape) :
    Delimited (fun _ => True) fun text => (quote escape text).toList := by
  intro left right afterLeft afterRight stopsLeft stopsRight same
  simp only [toList_quote] at same
  have both := quoteChars_delimited code stopsLeft stopsRight same
  exact ⟨String.toList_inj.mp both.1, both.2⟩

/-- A list is read back element by element: after each one stands either the separator or
the end of the list. -/
theorem intercalate_injective {stops : List Char → Prop} {print : α → List Char}
    (delimited : Delimited stops print) {separator last : List Char}
    (separatorStops : ∀ after, stops (separator ++ after)) (lastStops : stops last)
    (apart : ∀ after, separator ++ after ≠ last) {left right : List α}
    (leftNonempty : left ≠ []) (rightNonempty : right ≠ [])
    (same : separator.intercalate (left.map print) ++ last =
      separator.intercalate (right.map print) ++ last) : left = right := by
  induction left generalizing right with
  | nil => exact absurd rfl leftNonempty
  | cons item left ih =>
      obtain ⟨other, right, rfl⟩ := List.exists_cons_of_ne_nil rightNonempty
      cases left with
      | nil =>
          cases right with
          | nil =>
              simp only [List.map_cons, List.map_nil, List.intercalate_singleton] at same
              rw [(delimited lastStops lastStops same).1]
          | cons next right =>
              simp only [List.map_cons, List.map_nil, List.intercalate_singleton,
                List.intercalate_cons_cons, List.append_assoc] at same
              have after := (delimited lastStops (separatorStops _) same).2
              exact absurd after.symm (apart _)
      | cons following left =>
          cases right with
          | nil =>
              simp only [List.map_cons, List.map_nil, List.intercalate_singleton,
                List.intercalate_cons_cons, List.append_assoc] at same
              have after := (delimited (separatorStops _) lastStops same).2
              exact absurd after (apart _)
          | cons next right =>
              rw [List.map_cons, List.map_cons, List.map_cons, List.map_cons,
                List.intercalate_cons_cons, List.intercalate_cons_cons, List.append_assoc,
                List.append_assoc, List.append_assoc, List.append_assoc] at same
              obtain ⟨head, after⟩ := delimited (separatorStops _) (separatorStops _) same
              have tails := ih (List.cons_ne_nil _ _) (List.cons_ne_nil _ _)
                (List.append_cancel_left after)
              rw [head, tails]

end Text

open Text

theorem numeral_injective {left right : Int64} (same : numeral left = numeral right) :
    left = right :=
  Int64.toInt_inj.mp (Number.toString_int_injective same)

/-- The text of a case value, in a language with these escapes. -/
def literalText (escape : Char → List Char) : CaseValue → List Char
  | .integer value => (numeral value).toList
  | .string text => (quote escape text).toList

theorem numeral_ne_quote (escape : Char → List Char) (value : Int64) (text : String)
    (afterLeft afterRight : List Char) :
    (numeral value).toList ++ afterLeft ≠ (quote escape text).toList ++ afterRight := by
  intro same
  obtain ⟨first, rest, form, digit⟩ := Number.toString_int_opens value.toInt
  rw [numeral, form, toList_quote, quoteChars, List.cons_append, List.cons_append] at same
  rw [(List.cons.inj same).1] at digit
  exact absurd digit (by decide)

/-- A literal opens with a digit, a minus or a quotation mark. -/
theorem literalText_opens (escape : Char → List Char) (value : CaseValue) :
    ∃ first rest, literalText escape value = first :: rest ∧
      (Number.inNumeral first || first == '"') = true := by
  cases value with
  | integer value =>
      obtain ⟨first, rest, form, digit⟩ := Number.toString_int_opens value.toInt
      exact ⟨first, rest, form, by simp [digit]⟩
  | string text => exact ⟨'"', _, toList_quote escape text, by decide⟩

theorem literalText_delimited {escape : Char → List Char} (code : IsCode escape) :
    Delimited (fun after => ∀ c ∈ after.head?, Number.inNumeral c = false) (literalText escape) := by
  intro left right afterLeft afterRight leftStops rightStops same
  cases left with
  | integer left =>
      cases right with
      | integer right =>
          have both := append_inj_of_runs (Number.inNumeral_of_mem left.toInt)
            (Number.inNumeral_of_mem right.toInt) leftStops rightStops same
          exact ⟨by rw [numeral_injective (String.toList_inj.mp both.1)], both.2⟩
      | string right => exact absurd same (numeral_ne_quote escape left right _ _)
  | string left =>
      cases right with
      | integer right => exact absurd same.symm (numeral_ne_quote escape right left _ _)
      | string right =>
          have both := @quote_delimited escape code left right _ _ trivial trivial same
          exact ⟨by rw [both.1], both.2⟩

theorem literalText_injective {escape : Char → List Char} (code : IsCode escape)
    {left right : CaseValue} (same : literalText escape left = literalText escape right) :
    left = right := by
  have ended : literalText escape left ++ [] = literalText escape right ++ [] := by rw [same]
  exact (literalText_delimited code (by simp) (by simp) ended).1

theorem Go.toList_literal (value : CaseValue) :
    (Go.literal value).toList = literalText Go.escape value := by
  cases value <;> rfl

theorem TypeScript.toList_literal (value : CaseValue) :
    (TypeScript.literal value).toList = literalText TypeScript.escape value := by
  cases value <;> rfl

end WireSchema
