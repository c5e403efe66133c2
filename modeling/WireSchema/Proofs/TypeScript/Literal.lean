import WireSchema.Proofs.Json.Strings
import WireSchema.Proofs.TypeScript.Faithful

namespace WireSchema.TypeScript

/-! Names and strings as a reader of TypeScript takes them.

A name in quotes goes on to the first quotation mark that is not escaped, and any other name
as far as the characters of identifiers.  A literal gives 16-bit units, and units given by their
codes may make up a character only together, as they do in JSON.  What stands between quotation
marks for which text is said by a relation, character by character.  A reader takes every such
spelling for its text, and the literals that are printed keep to these spellings.  A name without
marks is its own text.
-/

open Json (Unit16 hexUnit? joinUnits)
open Text (hexDigits keepsLine unescapeShort?)

/-- What stands behind an opening quotation mark, up to and with the closing one, and what
follows that. -/
def splitQuoted : List Char → List Char × List Char
  | [] => ([], [])
  | '"' :: rest => (['"'], rest)
  | '\\' :: c :: rest => ('\\' :: c :: (splitQuoted rest).1, (splitQuoted rest).2)
  | c :: rest => (c :: (splitQuoted rest).1, (splitQuoted rest).2)

/-- The name that a line opens with, and what follows it. -/
def splitName : List Char → List Char × List Char
  | '"' :: rest => ('"' :: (splitQuoted rest).1, (splitQuoted rest).2)
  | chars => (chars.takeWhile inName, chars.dropWhile inName)

/-- Between quotation marks, `inside` stands for `text`. -/
inductive StandsFor : (inside text : List Char) → Prop where
  | nil : StandsFor [] []
  | plain {c : Char} {inside text : List Char} : keepsLine c = true → c ≠ '\\' → c ≠ '"' →
      StandsFor inside text → StandsFor (c :: inside) (c :: text)
  | letter {letter c : Char} {inside text : List Char} : unescapeShort? letter = some c →
      StandsFor inside text → StandsFor ('\\' :: letter :: inside) (c :: text)
  | code {first second third fourth c : Char} {inside text : List Char} :
      hexUnit? first second third fourth = some c.toNat → StandsFor inside text →
      StandsFor ('\\' :: 'u' :: first :: second :: third :: fourth :: inside) (c :: text)

/-- The units behind an opening quotation mark, and what follows the closing one. -/
def readUnits? : List Char → Option (List Unit16 × List Char)
  | [] => none
  | '"' :: after => some ([], after)
  | '\n' :: _ => none
  | '\r' :: _ => none
  | '\\' :: 'u' :: first :: second :: third :: fourth :: rest => do
      let code ← hexUnit? first second third fourth
      let (units, after) ← readUnits? rest
      some (.code code :: units, after)
  | '\\' :: letter :: rest => do
      let c ← unescapeShort? letter
      let (units, after) ← readUnits? rest
      some (.char c :: units, after)
  | c :: rest => do
      let (units, after) ← readUnits? rest
      some (.char c :: units, after)

/-- The text of the literal that some characters open with, and what follows the literal. -/
def readLiteral? : List Char → Option (String × List Char)
  | '"' :: quoted => do
      let (units, after) ← readUnits? quoted
      let text ← joinUnits units
      some (String.ofList text, after)
  | _ => none

/-- The text that a literal denotes, if there is nothing behind the literal. -/
def stringValue? (literal : String) : Option String :=
  match readLiteral? literal.toList with
  | some (text, []) => some text
  | _ => none

/-- The name that a property has: a literal gives its text, and an identifier is the name. -/
def propertyKey? (printed : String) : Option String :=
  if printed.toList.head? = some '"' then stringValue? printed
  else if isIdentifierName printed = true then some printed
  else none

/-- The ways in which one character is written between quotation marks. -/
theorem escape_cases (c : Char) :
    (∃ letter, unescapeShort? letter = some c ∧ letter ≠ 'u' ∧ escape c = ['\\', letter]) ∨
      (c.toNat < 0x10000 ∧ escape c = '\\' :: 'u' :: hexDigits 4 c.toNat) ∨
      ((Text.keepsLine c = true ∧ c ≠ '\\' ∧ c ≠ '"') ∧ escape c = [c]) := by
  rw [escape_eq]
  rcases Text.escapeByCode_cases (fun c => Text.isControl c || c == '\u2028' || c == '\u2029')
    'u' 4 c with ⟨letter, short, form⟩ | ⟨needed, form⟩ | ⟨⟨raw, marks⟩, form⟩
  · exact .inl ⟨letter, Text.unescapeShort?_of_shortEscape? short,
      Text.shortEscape?_unmarked (.inr rfl) short, form⟩
  · refine .inr (.inl ⟨?_, form⟩)
    simp only [Text.isControl, Bool.or_eq_true, Bool.and_eq_true, decide_eq_true_eq,
      beq_iff_eq] at needed
    rcases needed with (control | rfl) | rfl
    · omega
    · decide
    · decide
  · simp only [Bool.or_eq_false_iff, beq_eq_false_iff_ne] at raw
    exact .inr (.inr ⟨⟨by simp [Text.keepsLine, raw], marks⟩, form⟩)

theorem splitQuoted_plain {plain : List Char} (marks : ∀ c ∈ plain, c ≠ '\\' ∧ c ≠ '"')
    (rest : List Char) :
    splitQuoted (plain ++ rest) = (plain ++ (splitQuoted rest).1, (splitQuoted rest).2) := by
  induction plain with
  | nil => rfl
  | cons c plain ih =>
      rw [List.forall_mem_cons] at marks
      obtain ⟨noBackslash, noQuote⟩ := marks.1
      rw [List.cons_append, splitQuoted.eq_4, ih marks.2]
      · rfl
      · exact noQuote
      · exact fun _ _ same => absurd same noBackslash

theorem splitQuoted_escape (c : Char) (rest : List Char) :
    splitQuoted (escape c ++ rest) = (escape c ++ (splitQuoted rest).1, (splitQuoted rest).2) := by
  rcases escape_cases c with ⟨letter, _, _, form⟩ | ⟨_, form⟩ |
    ⟨⟨_, noBackslash, noQuote⟩, form⟩
  · rw [form]
    rfl
  · have digits : ∀ digit ∈ hexDigits 4 c.toNat, digit ≠ '\\' ∧ digit ≠ '"' :=
      fun _ member => Text.ne_marks_of_mem_hexDigits member
    rw [form, List.cons_append, List.cons_append, splitQuoted, splitQuoted_plain digits]
    rfl
  · rw [form]
    exact splitQuoted_plain (by simp [noBackslash, noQuote]) rest

theorem splitQuoted_flatMap (text after : List Char) :
    splitQuoted (text.flatMap escape ++ '"' :: after) = (text.flatMap escape ++ ['"'], after) := by
  induction text with
  | nil => rfl
  | cons c text ih => rw [List.flatMap_cons, List.append_assoc, splitQuoted_escape, ih,
      List.append_assoc]

theorem standsFor_escape (c : Char) {inside text : List Char} (rest : StandsFor inside text) :
    StandsFor (escape c ++ inside) (c :: text) := by
  rcases escape_cases c with ⟨letter, short, _, form⟩ | ⟨fits, form⟩ |
    ⟨⟨keeps, noBackslash, noQuote⟩, form⟩
  · rw [form]
    exact .letter short rest
  · obtain ⟨first, second, third, fourth, digits, value⟩ := Json.hexUnit?_hexDigits fits
    rw [form, digits]
    exact .code value rest
  · rw [form]
    exact .plain keeps noBackslash noQuote rest

theorem standsFor_flatMap (text : List Char) : StandsFor (text.flatMap escape) text := by
  induction text with
  | nil => exact .nil
  | cons c text ih =>
      rw [List.flatMap_cons]
      exact standsFor_escape c ih

theorem toList_stringLiteral (text : String) :
    (stringLiteral text).toList = '"' :: (text.toList.flatMap escape ++ ['"']) :=
  Text.toList_quote escape text

/-- An identifier does not look like a name in quotes. -/
theorem exists_cons_of_identifier {name : String} (identifier : isIdentifierName name = true) :
    ∃ first rest, name.toList = first :: rest ∧ first ≠ '"' := by
  obtain ⟨first, rest, form⟩ := List.exists_cons_of_ne_nil (Text.ne_empty_of_identifier identifier)
  refine ⟨first, rest, form, ?_⟩
  rintro rfl
  have continues := Text.continues_of_mem_identifier identifier '"' (by simp [form])
  exact absurd continues (by decide)

theorem splitName_propertyName (name : String) {after : List Char}
    (stops : ∀ c ∈ after.head?, inName c = false) :
    splitName ((propertyName name).toList ++ after) = ((propertyName name).toList, after) := by
  rw [propertyName]
  split
  · rename_i identifier
    have inside : ∀ c ∈ name.toList, inName c = true :=
      Text.continues_of_mem_identifier identifier
    obtain ⟨first, rest, form, noQuote⟩ := exists_cons_of_identifier identifier
    have unquoted : splitName (name.toList ++ after) =
        ((name.toList ++ after).takeWhile inName, (name.toList ++ after).dropWhile inName) := by
      rw [form, List.cons_append, splitName]
      exact fun _ same => absurd (List.cons.inj same).1 noQuote
    rw [unquoted, Text.takeWhile_run inside stops, Text.dropWhile_run inside stops]
  · rw [toList_stringLiteral, List.cons_append, List.append_assoc, splitName, List.singleton_append,
      splitQuoted_flatMap]

/-- Reading gives back any text from any of its spellings, whatever follows the closing mark. -/
theorem readUnits?_standsFor {inside text : List Char} (stands : StandsFor inside text)
    (after : List Char) :
    ∃ units, readUnits? (inside ++ '"' :: after) = some (units, after) ∧
      joinUnits units = some text := by
  induction stands with
  | nil => exact ⟨[], rfl, rfl⟩
  | @plain c inside text keeps noBackslash noQuote _ ih =>
      obtain ⟨units, read, joined⟩ := ih
      refine ⟨.char c :: units, ?_, by rw [joinUnits, joined]; rfl⟩
      rw [List.cons_append, readUnits?, read]
      · rfl
      · exact noQuote
      · intro same
        rw [same] at keeps
        cases keeps
      · intro same
        rw [same] at keeps
        cases keeps
      · exact fun _ _ _ _ _ same => absurd same noBackslash
      · exact fun _ _ same => absurd same noBackslash
  | @letter letter c inside text short _ ih =>
      obtain ⟨units, read, joined⟩ := ih
      refine ⟨.char c :: units, ?_, by rw [joinUnits, joined]; rfl⟩
      have noCode : letter ≠ 'u' := by
        intro same
        rw [same] at short
        cases short
      rw [List.cons_append, List.cons_append, readUnits?, short, read]
      · rfl
      · exact fun _ _ _ _ _ same => absurd same noCode
  | @code first second third fourth c inside text value _ ih =>
      obtain ⟨units, read, joined⟩ := ih
      refine ⟨.code c.toNat :: units, ?_, by rw [Json.joinUnits_code, joined]; rfl⟩
      simp only [List.cons_append]
      rw [readUnits?, value, read]
      rfl

theorem readLiteral?_standsFor {inside text : List Char} (stands : StandsFor inside text)
    (after : List Char) :
    readLiteral? ('"' :: (inside ++ '"' :: after)) = some (String.ofList text, after) := by
  obtain ⟨units, read, joined⟩ := readUnits?_standsFor stands after
  rw [readLiteral?, read]
  simp only [Option.bind_eq_bind, Option.bind_some, joined]

theorem readLiteral?_stringLiteral (text : String) (after : List Char) :
    readLiteral? ((stringLiteral text).toList ++ after) = some (text, after) := by
  rw [toList_stringLiteral, List.cons_append, List.append_assoc, List.singleton_append,
    readLiteral?_standsFor (standsFor_flatMap text.toList), String.ofList_toList]

theorem stringValue?_stringLiteral (text : String) :
    stringValue? (stringLiteral text) = some text := by
  have read := readLiteral?_stringLiteral text []
  rw [List.append_nil] at read
  rw [stringValue?, read]

theorem propertyKey?_propertyName (name : String) :
    propertyKey? (propertyName name) = some name := by
  by_cases identifier : isIdentifierName name = true
  · obtain ⟨first, rest, form, noQuote⟩ := exists_cons_of_identifier identifier
    have bare : propertyName name = name := if_pos identifier
    have unquoted : name.toList.head? ≠ some '"' := by
      rw [form]
      simpa using noQuote
    rw [bare, propertyKey?, if_neg unquoted, if_pos identifier]
  · have quoted : propertyName name = stringLiteral name := if_neg identifier
    have marked : (stringLiteral name).toList.head? = some '"' := by
      rw [toList_stringLiteral]
      rfl
    rw [quoted, propertyKey?, if_pos marked, stringValue?_stringLiteral]

theorem propertyName_injective : Function.Injective propertyName := by
  intro left right same
  have key := propertyKey?_propertyName left
  rw [same, propertyKey?_propertyName right] at key
  exact (Option.some.inj key).symm

/-- The literal of a text stays on its line, ends with the first mark that no backslash escapes,
and is read as the text.  A property name, in marks or without, is read as the name. -/
theorem propertyName_denotes :
    (∀ text : String,
      (∃ inside, (stringLiteral text).toList = '"' :: (inside ++ ['"']) ∧
        StandsFor inside text.toList) ∧
      (∀ c ∈ (stringLiteral text).toList,
        Text.isControl c = false ∧ c ≠ '\u2028' ∧ c ≠ '\u2029') ∧
      (∀ after, readLiteral? ((stringLiteral text).toList ++ after) = some (text, after)) ∧
      stringValue? (stringLiteral text) = some text ∧
      propertyKey? (propertyName text) = some text) ∧
    ∀ left right, left ≠ right → propertyName left ≠ propertyName right := by
  refine ⟨fun text => ⟨⟨_, toList_stringLiteral text, standsFor_flatMap text.toList⟩, ?_,
    readLiteral?_stringLiteral text, stringValue?_stringLiteral text,
    propertyKey?_propertyName text⟩, ?_⟩
  · intro c member
    have keeps := stringLiteral_keepsLine text c member
    simpa [keepsLine, and_assoc] using keeps
  · intro left right different
    exact propertyName_injective.ne different

example : stringLiteral "\u2028\"a" = "\"\\u2028\\\"a\"" ∧
    stringValue? "\"\\u2028\\\"a\"" = some "\u2028\"a" ∧
    stringValue? "\"\\uD83D\\uDE00\"" = some "😀" := by
  decide +kernel

/-- A name with a control character and a digit behind it, and the same name spelled out. -/
theorem propertyName_escape_digit :
    "\x85a" ≠ "\\u0085a" ∧ propertyName "\x85a" ≠ propertyName "\\u0085a" := by
  have different : "\x85a" ≠ "\\u0085a" := by decide
  exact ⟨different, propertyName_denotes.2 _ _ different⟩

end WireSchema.TypeScript
