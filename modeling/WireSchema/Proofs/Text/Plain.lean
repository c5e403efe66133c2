import WireSchema.Proofs.Number.Digits
import WireSchema.Proofs.Text.Escape
import WireSchema.Schema.Basic

namespace WireSchema

/-! Text that stays on its line.

A plain character is no control character of ASCII, so it neither ends a line nor moves the
columns.  Identifiers, numerals and quoted texts consist of plain characters, whatever the
schema says; the escapes of the quoted forms are there for that.  TypeScript also avoids the
control characters beyond ASCII and the two line separators.
-/

namespace Text

/-- No control character of ASCII. -/
def isPlain (c : Char) : Bool :=
  0x20 ≤ c.toNat && c.toNat != 0x7F

/-- A plain character that is no space, so that it stays within its cell as well. -/
def isSolid (c : Char) : Bool := isPlain c && c != ' '

theorem isPlain_of_isSolid {c : Char} (solid : isSolid c = true) : isPlain c = true :=
  (Bool.and_eq_true_iff.mp solid).1

theorem not_mem_of_isSolid {chars : List Char} (solid : ∀ c ∈ chars, isSolid c = true) :
    ' ' ∉ chars :=
  fun member => absurd (solid ' ' member) (by decide)

/-- No control character at all, and no line separator. -/
def keepsLine (c : Char) : Bool := !isControl c && c != '\u2028' && c != '\u2029'

/-- Letters and digits are three ranges of code points. -/
theorem range_of_isAlphanum {c : Char} (word : c.isAlphanum = true) :
    ((65 ≤ c.toNat ∧ c.toNat ≤ 90) ∨ (97 ≤ c.toNat ∧ c.toNat ≤ 122)) ∨
      (48 ≤ c.toNat ∧ c.toNat ≤ 57) := by
  change ((decide (65 ≤ c.val ∧ c.val ≤ 90) ||
    (decide (97 ≤ c.val) && decide (c.val ≤ 122))) ||
    (decide (48 ≤ c.val) && decide (c.val ≤ 57))) = true at word
  simp only [Bool.or_eq_true, Bool.and_eq_true, decide_eq_true_eq, UInt32.le_iff_toNat_le] at word
  exact word

theorem isPlain_of_isAlphanum {c : Char} (word : c.isAlphanum = true) : isPlain c = true := by
  have range := range_of_isAlphanum word
  simp only [isPlain, Bool.and_eq_true, decide_eq_true_eq, bne_iff_ne]
  omega

/-- A character keeps to its line unless its code point is that of a control character or of
a separator. -/
theorem keepsLine_iff {c : Char} :
    keepsLine c = true ↔ (0x20 ≤ c.toNat ∧ (c.toNat < 0x7F ∨ 0xA0 ≤ c.toNat)) ∧
      c.toNat ≠ 0x2028 ∧ c.toNat ≠ 0x2029 := by
  have separator (other : Char) : c ≠ other ↔ c.toNat ≠ other.toNat :=
    not_congr Char.toNat_inj.symm
  simp only [keepsLine, isControl, Bool.and_eq_true, Bool.not_eq_true', Bool.or_eq_false_iff,
    Bool.and_eq_false_iff, decide_eq_false_iff_not, Nat.not_lt, Nat.not_le, bne_iff_ne, separator,
    and_assoc]
  rfl

theorem keepsLine_of_isAlphanum {c : Char} (word : c.isAlphanum = true) : keepsLine c = true := by
  have range := range_of_isAlphanum word
  rw [keepsLine_iff]
  omega

/-- Below U+0080 an identifier is made of letters, digits and underscores of ASCII. -/
theorem isAlphanum_of_continuesIdentifier {c : Char}
    (continues : continuesIdentifier [] c = true) :
    0x80 ≤ c.toNat ∨ c.isAlphanum = true ∨ c = '_' := by
  by_cases small : c.toNat < 0x80
  · refine .inr ?_
    simp only [continuesIdentifier, opensIdentifier, isLetter, small, if_true,
      List.contains_nil, Bool.or_false, Bool.or_eq_true, beq_iff_eq] at continues
    rcases continues with (letter | underscore) | digit
    · exact .inl (by simp [Char.isAlphanum, letter])
    · exact .inr underscore
    · exact .inl (by simp [Char.isAlphanum, digit])
  · exact .inl (by omega)

theorem isPlain_of_continuesIdentifier {c : Char}
    (continues : continuesIdentifier [] c = true) : isPlain c = true := by
  rcases isAlphanum_of_continuesIdentifier continues with large | word | rfl
  · have notDelete : c.toNat ≠ 0x7F := by omega
    have notControl : 0x20 ≤ c.toNat := by omega
    simp [isPlain, notDelete, notControl]
  · exact isPlain_of_isAlphanum word
  · decide

theorem isSolid_of_continuesIdentifier {c : Char}
    (continues : continuesIdentifier [] c = true) : isSolid c = true := by
  have visible : c ≠ ' ' := by
    rintro rfl
    exact absurd continues (by decide)
  simp [isSolid, isPlain_of_continuesIdentifier continues, visible]

theorem continuesIdentifier_of_opens {extra : List Char} {c : Char}
    (opens : opensIdentifier extra c = true) : continuesIdentifier extra c = true := by
  simp [continuesIdentifier, opens]

theorem opensIdentifier_iff {c : Char} :
    opensIdentifier [] c = true ↔ isLetter c = true ∨ c = '_' := by
  simp [opensIdentifier]

section

variable {extra : List Char} {name : String}

theorem isIdentifier_iff :
    isIdentifier extra name = true ↔
      ∃ first rest, name.toList = first :: rest ∧ opensIdentifier extra first = true ∧
        ∀ c ∈ rest, continuesIdentifier extra c = true := by
  rw [isIdentifier]
  cases name.toList with
  | nil => simp [spellsIdentifier]
  | cons first rest =>
      rw [spellsIdentifier, Bool.and_eq_true, List.all_eq_true]
      constructor
      · exact fun spelled => ⟨first, rest, rfl, spelled⟩
      · rintro ⟨_, _, form, spelled⟩
        cases form
        exact spelled

theorem continues_of_mem_identifier (identifier : isIdentifier extra name = true) :
    ∀ c ∈ name.toList, continuesIdentifier extra c = true := by
  obtain ⟨first, rest, spelled, opens, continues⟩ := isIdentifier_iff.mp identifier
  intro c member
  rw [spelled] at member
  rcases List.mem_cons.mp member with rfl | later
  · exact continuesIdentifier_of_opens opens
  · exact continues c later

theorem ne_empty_of_identifier (identifier : isIdentifier extra name = true) :
    name.toList ≠ [] := by
  obtain ⟨first, rest, spelled, _⟩ := isIdentifier_iff.mp identifier
  rw [spelled]
  exact List.cons_ne_nil first rest

end

theorem isAlphanum_of_isDigit {c : Char} (digit : c.isDigit = true) : c.isAlphanum = true := by
  simp [Char.isAlphanum, digit]

/-- The tables of letters leave out every character that could end a line. -/
theorem keepsLine_of_isLetter {c : Char} (letter : isLetter c = true) :
    keepsLine c = true := by
  have apart : ∀ range ∈ letterRanges ++ supplementaryLetterRanges,
      0xA0 ≤ range.1 ∧ (range.2 < 0x2028 ∨ 0x2029 < range.1) := by
    decide +kernel
  have outside {ranges : CodeRanges}
      (part : ranges ⊆ letterRanges ++ supplementaryLetterRanges)
      (covered : ranges.covers c = true) : keepsLine c = true := by
    obtain ⟨range, member, low, high⟩ := (ranges.covers_iff c).mp covered
    have bounds := apart range (part member)
    rw [keepsLine_iff]
    omega
  unfold isLetter at letter
  split at letter
  · exact keepsLine_of_isAlphanum (by simp [Char.isAlphanum, letter])
  · rcases Bool.or_eq_true_iff.mp letter with basic | supplementary
    · exact outside (List.subset_append_left _ _) basic
    · exact outside (List.subset_append_right _ _) supplementary

theorem keepsLine_of_continuesIdentifier {extra : List Char} {c : Char}
    (extraKeeps : ∀ other ∈ extra, keepsLine other = true)
    (continues : continuesIdentifier extra c = true) : keepsLine c = true := by
  simp only [continuesIdentifier, opensIdentifier, Bool.or_eq_true, beq_iff_eq,
    List.contains_iff_mem] at continues
  rcases continues with ((letter | rfl) | allowed) | digit
  · exact keepsLine_of_isLetter letter
  · decide
  · exact extraKeeps c allowed
  · exact keepsLine_of_isAlphanum (isAlphanum_of_isDigit digit)

end Text

open Text

theorem mem_numeral {value : Int64} {c : Char} (member : c ∈ (numeral value).toList) :
    c.isDigit = true ∨ c = '-' := by
  simpa [Number.inNumeral] using Number.inNumeral_of_mem value.toInt c member

theorem numeral_plain (value : Int64) : ∀ c ∈ (numeral value).toList, isPlain c = true := by
  intro c member
  rcases mem_numeral member with digit | rfl
  · exact isPlain_of_isAlphanum (isAlphanum_of_isDigit digit)
  · decide

theorem numeral_keepsLine (value : Int64) :
    ∀ c ∈ (numeral value).toList, keepsLine c = true := by
  intro c member
  rcases mem_numeral member with digit | rfl
  · exact keepsLine_of_isAlphanum (isAlphanum_of_isDigit digit)
  · decide

theorem mem_quote {escape : Char → List Char} {text : String} {c : Char}
    (member : c ∈ (quote escape text).toList) :
    c = '"' ∨ ∃ original, c ∈ escape original := by
  rw [toList_quote, quoteChars, List.mem_cons, List.mem_append, List.mem_singleton] at member
  rcases member with first | inside | last
  · exact .inl first
  · obtain ⟨original, _, written⟩ := List.mem_flatMap.mp inside
    exact .inr ⟨original, written⟩
  · exact .inl last

/-- The escapes only use letters, digits and marks, so the characters that stand as they are
decide what a quoted text is made of. -/
theorem mem_quote_escapeByCode {allowed needsCode : Char → Bool} {marker : Char} {width : Nat}
    {text : String} (marks : ['"', '\\'].all allowed = true)
    (words : ∀ c, c.isAlphanum = true → allowed c = true) (word : marker.isAlphanum = true)
    (raw : ∀ c, needsCode c = false → allowed c = true) :
    ∀ c ∈ (quote (escapeByCode needsCode marker width) text).toList, allowed c = true := by
  have marked := List.all_eq_true.mp marks
  intro c member
  rcases mem_quote member with rfl | ⟨original, written⟩
  · exact marked '"' (by decide)
  · rcases mem_escapeByCode written with letter | ⟨digit, small, rfl⟩ | ⟨rfl, unescaped⟩
    · simp only [List.mem_cons, List.not_mem_nil, or_false] at letter
      rcases letter with rfl | rfl | rfl | rfl | rfl | rfl
      · exact marked '\\' (by decide)
      · exact marked '"' (by decide)
      · exact words 'n' (by decide)
      · exact words 'r' (by decide)
      · exact words 't' (by decide)
      · exact words c word
    · have digits : ∀ digit < 16, (Nat.digitChar digit).isAlphanum = true := by decide
      exact words _ (digits digit small)
    · exact raw c unescaped

theorem Go.stringLiteral_plain (text : String) :
    ∀ c ∈ (Go.stringLiteral text).toList, isPlain c = true := by
  rw [Go.stringLiteral, Go.escape_eq]
  apply mem_quote_escapeByCode (by decide) (fun _ => isPlain_of_isAlphanum) (by decide)
  intro c raw
  simp only [Bool.or_eq_false_iff, decide_eq_false_iff_not, beq_eq_false_iff_ne,
    Nat.not_lt] at raw
  simp [isPlain, raw]

theorem TypeScript.stringLiteral_keepsLine (text : String) :
    ∀ c ∈ (TypeScript.stringLiteral text).toList, keepsLine c = true := by
  rw [TypeScript.stringLiteral, TypeScript.escape_eq]
  apply mem_quote_escapeByCode (by decide) (fun _ => keepsLine_of_isAlphanum) (by decide)
  intro c raw
  simp only [Bool.or_eq_false_iff, beq_eq_false_iff_ne] at raw
  simp [keepsLine, raw]

end WireSchema
