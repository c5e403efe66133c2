import WireSchema.Proofs.Text.Plain

namespace WireSchema.Go

/-! String literals as a reader of Go takes them.

A literal denotes bytes, and it is for the program to take them for UTF-8.  An escape with a
letter gives a character, one with two hexadecimal digits a single byte, and every other
character stands for itself.  The literal of a text denotes that text, even where the text
looks like an escape or goes on with a digit behind one.
-/

open Text (hexDigits hexValue? isPlain unescapeShort?)

def readByte? (high low : Char) : Option UInt8 := (hexValue? [high, low]).map UInt8.ofNat

/-- The bytes that stand behind an opening quotation mark, and what follows the closing one. -/
def readQuoted? : List Char → Option (List UInt8 × List Char)
  | [] => none
  | '"' :: after => some ([], after)
  | '\n' :: _ => none
  | '\\' :: 'x' :: high :: low :: rest => do
      let byte ← readByte? high low
      let (bytes, after) ← readQuoted? rest
      some (byte :: bytes, after)
  | '\\' :: letter :: rest => do
      let c ← unescapeShort? letter
      let (bytes, after) ← readQuoted? rest
      some (String.utf8EncodeChar c ++ bytes, after)
  | c :: rest => do
      let (bytes, after) ← readQuoted? rest
      some (String.utf8EncodeChar c ++ bytes, after)

/-- The bytes of the literal that a text opens with, and what follows the literal. -/
def readLiteral? : List Char → Option (List UInt8 × List Char)
  | '"' :: quoted => readQuoted? quoted
  | _ => none

/-- The text that a literal denotes, if there is nothing behind the literal. -/
def denoted? (literal : String) : Option String :=
  match readLiteral? literal.toList with
  | some (bytes, []) => String.fromUTF8? bytes.toByteArray
  | _ => none

/-- A backslash stands in front of every quotation mark, and of one character at least. -/
inductive MarksEscaped : List Char → Prop where
  | nil : MarksEscaped []
  | escape {c : Char} {rest : List Char} : MarksEscaped rest → MarksEscaped ('\\' :: c :: rest)
  | plain {c : Char} {rest : List Char} : c ≠ '\\' → c ≠ '"' → MarksEscaped rest →
      MarksEscaped (c :: rest)

/-- The ways in which one character is written between quotation marks. -/
theorem escape_cases (c : Char) :
    (∃ letter, unescapeShort? letter = some c ∧ letter ≠ 'x' ∧ escape c = ['\\', letter]) ∨
      (c.toNat < 0x80 ∧ escape c = '\\' :: 'x' :: hexDigits 2 c.toNat) ∨
      ((isPlain c = true ∧ c ≠ '\\' ∧ c ≠ '"') ∧ escape c = [c]) := by
  rw [escape_eq]
  rcases Text.escapeByCode_cases (fun c => c.toNat < 0x20 || c.toNat == 0x7F) 'x' 2 c with
    ⟨letter, short, form⟩ | ⟨needed, form⟩ | ⟨⟨raw, marks⟩, form⟩
  · exact .inl ⟨letter, Text.unescapeShort?_of_shortEscape? short,
      Text.shortEscape?_unmarked (.inl rfl) short, form⟩
  · refine .inr (.inl ⟨?_, form⟩)
    simp only [Bool.or_eq_true, decide_eq_true_eq, beq_iff_eq] at needed
    omega
  · refine .inr (.inr ⟨⟨?_, marks⟩, form⟩)
    simp only [Bool.or_eq_false_iff, decide_eq_false_iff_not, beq_eq_false_iff_ne,
      Nat.not_lt] at raw
    simp [isPlain, raw]

theorem utf8EncodeChar_of_ascii {c : Char} (ascii : c.toNat < 0x80) :
    String.utf8EncodeChar c = [UInt8.ofNat c.toNat] := by
  have width : c.utf8Size = 1 := by
    rw [Char.utf8Size_eq_one_iff, UInt32.le_iff_toNat_le]
    exact Nat.lt_succ_iff.mp ascii
  exact String.utf8EncodeChar_eq_singleton width

theorem readByte?_ascii {value : Nat} (ascii : value < 0x80) :
    readByte? (Nat.digitChar (value / 16 % 16)) (Nat.digitChar (value % 16)) =
      some (UInt8.ofNat value) := by
  have read : hexValue? (hexDigits 2 value) = some value :=
    Text.hexValue?_hexDigits (Nat.lt_trans ascii (by decide))
  exact congrArg (Option.map UInt8.ofNat) read

theorem readQuoted?_escape (c : Char) (rest : List Char) :
    readQuoted? (escape c ++ rest) =
      (readQuoted? rest).map fun read => (String.utf8EncodeChar c ++ read.1, read.2) := by
  rcases escape_cases c with ⟨letter, short, unmarked, form⟩ | ⟨ascii, form⟩ |
    ⟨⟨plain, noBackslash, noQuote⟩, form⟩
  · rw [form, List.cons_append, List.cons_append, List.nil_append, readQuoted?]
    · rw [short]
      cases readQuoted? rest <;> rfl
    · exact fun _ _ _ same => absurd same unmarked
  · rw [form, utf8EncodeChar_of_ascii ascii]
    simp only [hexDigits, List.nil_append, List.cons_append]
    rw [readQuoted?, readByte?_ascii ascii]
    cases readQuoted? rest <;> rfl
  · rw [form, List.singleton_append, readQuoted?]
    · cases readQuoted? rest <;> rfl
    · exact fun same => absurd same noQuote
    · intro same
      rw [same] at plain
      cases plain
    · exact fun _ _ _ same => absurd same noBackslash
    · exact fun _ _ same => absurd same noBackslash

theorem marksEscaped_append {left right : List Char} (first : MarksEscaped left)
    (second : MarksEscaped right) : MarksEscaped (left ++ right) := by
  induction first with
  | nil => exact second
  | escape _ ih => exact .escape ih
  | plain noBackslash noQuote _ ih => exact .plain noBackslash noQuote ih

theorem marksEscaped_plain {plain : List Char} (marks : ∀ c ∈ plain, c ≠ '\\' ∧ c ≠ '"') :
    MarksEscaped plain := by
  induction plain with
  | nil => exact .nil
  | cons c plain ih =>
      rw [List.forall_mem_cons] at marks
      exact .plain marks.1.1 marks.1.2 (ih marks.2)

theorem marksEscaped_escape (c : Char) : MarksEscaped (escape c) := by
  rcases escape_cases c with ⟨letter, _, _, form⟩ | ⟨_, form⟩ | ⟨⟨_, marks⟩, form⟩
  · rw [form]
    exact .escape .nil
  · rw [form]
    exact .escape (marksEscaped_plain fun _ member => Text.ne_marks_of_mem_hexDigits member)
  · rw [form]
    exact .plain marks.1 marks.2 .nil

theorem readQuoted?_flatMap (text after : List Char) :
    readQuoted? (text.flatMap escape ++ '"' :: after) =
      some (text.flatMap String.utf8EncodeChar, after) := by
  induction text with
  | nil => rfl
  | cons c text ih =>
      rw [List.flatMap_cons, List.append_assoc, readQuoted?_escape, ih]
      rfl

theorem marksEscaped_flatMap (text : List Char) : MarksEscaped (text.flatMap escape) := by
  induction text with
  | nil => exact .nil
  | cons c text ih =>
      rw [List.flatMap_cons]
      exact marksEscaped_append (marksEscaped_escape c) ih

theorem toList_stringLiteral (text : String) :
    (stringLiteral text).toList = '"' :: (text.toList.flatMap escape ++ ['"']) :=
  Text.toList_quote escape text

theorem readLiteral?_stringLiteral (text : String) (after : List Char) :
    readLiteral? ((stringLiteral text).toList ++ after) =
      some (text.toList.flatMap String.utf8EncodeChar, after) := by
  rw [toList_stringLiteral, List.cons_append, List.append_assoc, List.singleton_append,
    readLiteral?, readQuoted?_flatMap]

theorem fromUTF8?_flatMap (text : String) :
    String.fromUTF8? (text.toList.flatMap String.utf8EncodeChar).toByteArray = some text := by
  have bytes : (text.toList.flatMap String.utf8EncodeChar).toByteArray = text.toByteArray := by
    conv => rhs; rw [← String.ofList_toList (s := text)]
    rfl
  rw [bytes, String.fromUTF8?, dif_pos text.isValidUTF8]
  rfl

theorem denoted?_stringLiteral (text : String) : denoted? (stringLiteral text) = some text := by
  have read := readLiteral?_stringLiteral text []
  rw [List.append_nil] at read
  rw [denoted?, read]
  exact fromUTF8?_flatMap text

theorem stringLiteral_injective : Function.Injective stringLiteral := by
  intro left right same
  have denoted := denoted?_stringLiteral left
  rw [same, denoted?_stringLiteral right] at denoted
  exact (Option.some.inj denoted).symm

/-- The literal of a text stands on one line and ends with the first quotation mark that no
backslash escapes, and a reader of it gets the text back. -/
theorem stringLiteral_denotes :
    (∀ text : String,
      (∃ inside, (stringLiteral text).toList = '"' :: (inside ++ ['"']) ∧ MarksEscaped inside) ∧
      (∀ c ∈ (stringLiteral text).toList, c ≠ '\n' ∧ 0x20 ≤ c.toNat ∧ c.toNat ≠ 0x7F) ∧
      (∀ after, readLiteral? ((stringLiteral text).toList ++ after) =
        some (text.toList.flatMap String.utf8EncodeChar, after)) ∧
      denoted? (stringLiteral text) = some text) ∧
    ∀ left right, left ≠ right → stringLiteral left ≠ stringLiteral right := by
  constructor
  · intro text
    refine ⟨⟨_, toList_stringLiteral text, marksEscaped_flatMap text.toList⟩, ?_,
      readLiteral?_stringLiteral text, denoted?_stringLiteral text⟩
    intro c member
    have plain := stringLiteral_plain text c member
    have onLine : c ≠ '\n' := by
      intro same
      rw [same] at plain
      cases plain
    simp only [isPlain, Bool.and_eq_true, decide_eq_true_eq, bne_iff_ne] at plain
    exact ⟨onLine, plain⟩
  · intro left right different
    exact stringLiteral_injective.ne different

example : stringLiteral "\\n\x01ab" = "\"\\\\n\\x01ab\"" ∧
    denoted? "\"\\\\n\\x01ab\"" = some "\\n\x01ab" := by
  decide +kernel

/-- A digit behind an escape is no part of it. -/
theorem stringLiteral_escape_digit :
    "\x07f" ≠ "\x7f" ∧ stringLiteral "\x07f" ≠ stringLiteral "\x7f" := by
  have different : "\x07f" ≠ "\x7f" := by decide
  exact ⟨different, stringLiteral_denotes.2 _ _ different⟩

end WireSchema.Go
