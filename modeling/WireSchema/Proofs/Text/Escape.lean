import WireSchema.Go.Lexis
import WireSchema.TypeScript.Lexis

namespace WireSchema

/-! How quoted texts write a single character.

Both languages share the short escapes and differ in the characters that they write by their
code point.  Each way of writing a character can be told from the others by its first two
characters, so the character can be read back whatever follows it.
-/

namespace Text

/-- A short escape where there is one, else the code point of a character that needs it. -/
def escapeByCode (needsCode : Char → Bool) (marker : Char) (width : Nat) : Char → List Char :=
  escapeOr fun c =>
    if needsCode c = true then '\\' :: marker :: hexDigits width c.toNat else [c]

theorem mem_hexDigits {width value : Nat} {c : Char} (member : c ∈ hexDigits width value) :
    ∃ digit < 16, c = Nat.digitChar digit := by
  induction width generalizing value with
  | zero => cases member
  | succ width ih =>
      rw [hexDigits, List.mem_append, List.mem_singleton] at member
      rcases member with higher | last
      · exact ih higher
      · exact ⟨value % 16, Nat.mod_lt _ (by decide), last⟩

/-- A numeral can stand between quotation marks as it is. -/
theorem ne_marks_of_mem_hexDigits {width value : Nat} {c : Char}
    (member : c ∈ hexDigits width value) : c ≠ '\\' ∧ c ≠ '"' := by
  have digits : ∀ digit < 16, Nat.digitChar digit ≠ '\\' ∧ Nat.digitChar digit ≠ '"' := by decide
  obtain ⟨digit, small, rfl⟩ := mem_hexDigits member
  exact digits digit small

/-- The character that a letter after a backslash stands for, in every quoted form. -/
def unescapeShort? : Char → Option Char
  | '"' => some '"'
  | '\\' => some '\\'
  | 'n' => some '\n'
  | 'r' => some '\r'
  | 't' => some '\t'
  | _ => none

theorem unescapeShort?_of_shortEscape? {c letter : Char}
    (short : shortEscape? c = some letter) : unescapeShort? letter = some c := by
  unfold shortEscape? at short
  split at short <;> cases short <;> rfl

/-- The first character of a quoted text, where `marker` opens an escape by code point. -/
def readChar? (marker : Char) (width : Nat) : List Char → Option Char
  | '\\' :: letter :: rest =>
      if letter = marker then (hexValue? (rest.take width)).map Char.ofNat
      else unescapeShort? letter
  | c :: _ => some c
  | [] => none

section

variable {needsCode : Char → Bool} {marker : Char} {width : Nat}

theorem escapeOr_cases (other : Char → List Char) (c : Char) :
    (∃ letter, shortEscape? c = some letter ∧ escapeOr other c = ['\\', letter]) ∨
      ((c ≠ '\\' ∧ c ≠ '"') ∧ escapeOr other c = other c) := by
  cases short : shortEscape? c with
  | some letter => exact .inl ⟨letter, rfl, by simp [escapeOr, short]⟩
  | none =>
      have noBackslash : c ≠ '\\' := by
        rintro rfl
        cases short
      have noQuote : c ≠ '"' := by
        rintro rfl
        cases short
      exact .inr ⟨⟨noBackslash, noQuote⟩, by simp [escapeOr, short]⟩

theorem escapeByCode_cases (needsCode : Char → Bool) (marker : Char) (width : Nat) (c : Char) :
    (∃ letter, shortEscape? c = some letter ∧
        escapeByCode needsCode marker width c = ['\\', letter]) ∨
      (needsCode c = true ∧
        escapeByCode needsCode marker width c = '\\' :: marker :: hexDigits width c.toNat) ∨
      ((needsCode c = false ∧ c ≠ '\\' ∧ c ≠ '"') ∧
        escapeByCode needsCode marker width c = [c]) := by
  rcases escapeOr_cases (fun c => if needsCode c = true then
    '\\' :: marker :: hexDigits width c.toNat else [c]) c with short | ⟨marks, form⟩
  · exact .inl short
  · cases needed : needsCode c with
    | true => exact .inr (.inl ⟨rfl, form.trans (if_pos needed)⟩)
    | false => exact .inr (.inr ⟨⟨rfl, marks⟩, form.trans (if_neg (by simp [needed]))⟩)

theorem mem_escapeByCode {c written : Char}
    (member : written ∈ escapeByCode needsCode marker width c) :
    written ∈ ['\\', '"', 'n', 'r', 't', marker] ∨
      (∃ digit < 16, written = Nat.digitChar digit) ∨
      (written = c ∧ needsCode c = false) := by
  rcases escapeByCode_cases needsCode marker width c with
    ⟨letter, short, form⟩ | ⟨_, form⟩ | ⟨⟨raw, _⟩, form⟩
  · have letters : letter ∈ ['\\', '"', 'n', 'r', 't', marker] := by
      unfold shortEscape? at short
      split at short <;> cases short <;> simp
    rw [form, List.mem_cons, List.mem_singleton] at member
    rcases member with rfl | rfl
    · exact .inl List.mem_cons_self
    · exact .inl letters
  · rw [form, List.mem_cons, List.mem_cons] at member
    rcases member with rfl | rfl | digit
    · exact .inl List.mem_cons_self
    · exact .inl (by simp)
    · exact .inr (.inl (mem_hexDigits digit))
  · rw [form, List.mem_singleton] at member
    exact .inr (.inr ⟨member, raw⟩)

theorem readChar?_escapeByCode
    (unused : ∀ c letter, shortEscape? c = some letter → letter ≠ marker)
    (fits : ∀ c, needsCode c = true → c.toNat < Nat.pow 16 width) (c : Char) (after : List Char) :
    readChar? marker width (escapeByCode needsCode marker width c ++ after) = some c := by
  rcases escapeByCode_cases needsCode marker width c with
    ⟨letter, short, form⟩ | ⟨needed, form⟩ | ⟨⟨_, noBackslash, _⟩, form⟩
  · have other := unused c letter short
    simp [form, readChar?, other, unescapeShort?_of_shortEscape? short]
  · have digits : (hexDigits width c.toNat ++ after).take width = hexDigits width c.toNat :=
      List.take_left' (length_hexDigits width c.toNat)
    simp [form, readChar?, digits, hexValue?_hexDigits (fits c needed)]
  · simp [form, readChar?, noBackslash]

end

/-- What is written for one character is never taken for what is written for another, nor
for the end of the text. -/
structure IsCode (escape : Char → List Char) : Prop where
  injective : ∀ {c d : Char} {afterLeft afterRight : List Char},
    escape c ++ afterLeft = escape d ++ afterRight → c = d
  opens : ∀ c, ∃ first rest, escape c = first :: rest ∧ first ≠ '"'

theorem isCode_escapeByCode {needsCode : Char → Bool} {marker : Char} {width : Nat}
    (unused : ∀ c letter, shortEscape? c = some letter → letter ≠ marker)
    (fits : ∀ c, needsCode c = true → c.toNat < Nat.pow 16 width) :
    IsCode (escapeByCode needsCode marker width) where
  injective := by
    intro c d afterLeft afterRight same
    have read := readChar?_escapeByCode unused fits c afterLeft
    rw [same, readChar?_escapeByCode unused fits d afterRight] at read
    exact (Option.some.inj read).symm
  opens := by
    intro c
    rcases escapeByCode_cases needsCode marker width c with
      ⟨letter, _, form⟩ | ⟨_, form⟩ | ⟨⟨_, _, noQuote⟩, form⟩
    · exact ⟨'\\', _, form, by decide⟩
    · exact ⟨'\\', _, form, by decide⟩
    · exact ⟨c, [], form, noQuote⟩

/-- No short escape uses a letter that opens an escape by code point. -/
theorem shortEscape?_unmarked {c letter marker : Char} (marked : marker = 'x' ∨ marker = 'u')
    (short : shortEscape? c = some letter) : letter ≠ marker := by
  unfold shortEscape? at short
  rcases marked with rfl | rfl <;> split at short <;> cases short <;> decide

end Text

open Text

theorem Go.escape_eq :
    Go.escape = escapeByCode (fun c => c.toNat < 0x20 || c.toNat == 0x7F) 'x' 2 := rfl

theorem TypeScript.escape_eq :
    TypeScript.escape =
      escapeByCode (fun c => isControl c || c == '\u2028' || c == '\u2029') 'u' 4 := rfl

theorem Go.isCode_escape : IsCode Go.escape := by
  rw [Go.escape_eq]
  apply isCode_escapeByCode (fun _ _ => shortEscape?_unmarked (.inl rfl))
  intro c needed
  simp only [Bool.or_eq_true, decide_eq_true_eq, beq_iff_eq] at needed
  change c.toNat < 0x100
  omega

theorem TypeScript.isCode_escape : IsCode TypeScript.escape := by
  rw [TypeScript.escape_eq]
  apply isCode_escapeByCode (fun _ _ => shortEscape?_unmarked (.inr rfl))
  intro c needed
  simp only [isControl, Bool.or_eq_true, Bool.and_eq_true, decide_eq_true_eq, beq_iff_eq] at needed
  rcases needed with (control | rfl) | rfl
  · change c.toNat < 0x10000
    omega
  · decide
  · decide

end WireSchema
