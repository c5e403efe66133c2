import Mathlib.Data.List.Forall2
import WireSchema.Json.Writer
import WireSchema.Json.Reader
import WireSchema.Proofs.Text.Escape

namespace WireSchema.Json

/-! Strings.

The grammar of strings says which pieces a text spells up to a closing quote.  The reader takes a
text exactly when the grammar does, and what the writer puts between quotes spells the string
again.
-/

/-- The text opens with the pieces of a string and its closing quote, and goes on with `rest`. -/
inductive SpellsUnits : (text : List Char) → List Unit16 → (rest : List Char) → Prop
  | closed {rest : List Char} : SpellsUnits ('"' :: rest) [] rest
  | plain {c : Char} {text rest : List Char} {units : List Unit16} : 0x20 ≤ c.toNat → c ≠ '"' →
      c ≠ '\\' → SpellsUnits text units rest → SpellsUnits (c :: text) (.char c :: units) rest
  | short {letter c : Char} {text rest : List Char} {units : List Unit16} :
      unescape? letter = some c → SpellsUnits text units rest →
      SpellsUnits ('\\' :: letter :: text) (.char c :: units) rest
  | code {a b c d : Char} {value : Nat} {text rest : List Char} {units : List Unit16} :
      hexUnit? a b c d = some value → SpellsUnits text units rest →
      SpellsUnits ('\\' :: 'u' :: a :: b :: c :: d :: text) (.code value :: units) rest

/-- The text opens with the rest of a string.  It has no value with half of a surrogate pair. -/
def SpellsString (text : List Char) (value : Option String) (rest : List Char) : Prop :=
  ∃ units, SpellsUnits text units rest ∧ value = stringOf? units

theorem readUnits_eq_iff {text rest : List Char} {units : List Unit16} :
    readUnits text = some (units, rest) ↔ SpellsUnits text units rest := by
  constructor
  · intro read
    fun_induction readUnits text generalizing units with
    | case1 => cases read
    | case2 =>
        cases read
        exact .closed
    | case3 a b c d text ih =>
        simp only [Option.bind_eq_bind, Option.bind_eq_some_iff, Prod.exists] at read
        obtain ⟨value, hex, units, _, later, same⟩ := read
        cases same
        exact .code hex (ih later)
    | case4 letter text _ ih =>
        simp only [Option.bind_eq_bind, Option.bind_eq_some_iff, Prod.exists] at read
        obtain ⟨c, stands, units, _, later, same⟩ := read
        cases same
        exact .short stands (ih later)
    | case5 => cases read
    | case6 c text notClosed _ _ printed ih =>
        simp only [Option.bind_eq_bind, Option.bind_eq_some_iff, Prod.exists] at read
        obtain ⟨units, _, later, same⟩ := read
        cases same
        simp only [Bool.or_eq_true, decide_eq_true_eq, beq_iff_eq, not_or] at printed
        exact .plain (Nat.le_of_not_lt printed.1) notClosed printed.2 (ih later)
  · intro spelled
    induction spelled with
    | closed => rfl
    | @plain c text rest units raw noQuote noBackslash _ ih =>
        have printed : (decide (c.toNat < 0x20) || c == '\\') = false := by
          simp [noBackslash, raw]
        rw [readUnits.eq_5 _ _ noQuote (fun _ _ _ _ _ escaped => absurd escaped noBackslash)
          (fun _ _ escaped => absurd escaped noBackslash), printed, ih]
        rfl
    | @short letter c text rest units stands _ ih =>
        have noCode : letter ≠ 'u' := by
          rintro rfl
          cases stands
        rw [readUnits.eq_4 _ _ (fun _ _ _ _ _ code => absurd code noCode), stands, ih]
        rfl
    | code hex _ ih =>
        rw [readUnits, hex, ih]
        rfl

theorem readString_eq_iff {text rest : List Char} {value : Option String} :
    readString text = some (value, rest) ↔ SpellsString text value rest := by
  simp only [readString, Option.bind_eq_bind, Option.bind_eq_some_iff, Prod.exists,
    readUnits_eq_iff, Option.some.injEq, Prod.mk.injEq]
  constructor
  · rintro ⟨units, _, spelled, rfl, rfl⟩
    exact ⟨units, spelled, rfl⟩
  · rintro ⟨units, spelled, rfl⟩
    exact ⟨units, rest, spelled, rfl, rfl⟩

theorem SpellsUnits.length_lt {text rest : List Char} {units : List Unit16}
    (spelled : SpellsUnits text units rest) : rest.length < text.length := by
  induction spelled with
  | closed => exact Nat.lt_succ_self _
  | plain _ _ _ _ ih | short _ _ ih | code _ _ ih =>
      simp only [List.length_cons]
      omega

theorem SpellsString.length_lt {text rest : List Char} {value : Option String}
    (spelled : SpellsString text value rest) : rest.length < text.length := by
  obtain ⟨_, units, _⟩ := spelled
  exact units.length_lt

/-- A character is written by a letter, by its code point, or as it is. -/
theorem escape_cases (c : Char) :
    (∃ letter, unescape? letter = some c ∧ escape c = ['\\', letter]) ∨
      (c.toNat < 0x20 ∧ escape c = '\\' :: 'u' :: Text.hexDigits 4 c.toNat) ∨
      ((0x20 ≤ c.toNat ∧ c ≠ '\\' ∧ c ≠ '"') ∧ escape c = [c]) := by
  rw [escape]
  rcases Text.escapeOr_cases _ c with ⟨letter, short, form⟩ | ⟨marks, form⟩
  · have stands : unescape? letter = some c := by
      unfold Text.shortEscape? at short
      split at short <;> cases short <;> rfl
    exact .inl ⟨letter, stands, form⟩
  rw [form]
  by_cases backspace : c = '\x08'
  · subst backspace
    exact .inl ⟨'b', rfl, rfl⟩
  by_cases formFeed : c = '\x0c'
  · subst formFeed
    exact .inl ⟨'f', rfl, rfl⟩
  rw [if_neg backspace, if_neg formFeed]
  by_cases control : c.toNat < 0x20
  · exact .inr (.inl ⟨control, if_pos control⟩)
  · exact .inr (.inr ⟨⟨Nat.le_of_not_lt control, marks⟩, if_neg control⟩)

theorem hexUnit?_hexDigits {value : Nat} (fits : value < 0x10000) :
    ∃ a b c d, Text.hexDigits 4 value = [a, b, c, d] ∧ hexUnit? a b c d = some value :=
  ⟨_, _, _, _, rfl, @Text.hexValue?_hexDigits 4 value fits⟩

/-- The pieces that the writer spells a character with. -/
inductive Unit16.Spells : Unit16 → Char → Prop where
  | char (c : Char) : Spells (.char c) c
  | code {c : Char} (control : c.toNat < 0x20) : Spells (.code c.toNat) c

theorem SpellsUnits.escape (c : Char) {text rest : List Char} {units : List Unit16}
    (spelled : SpellsUnits text units rest) :
    ∃ unit : Unit16, unit.Spells c ∧ SpellsUnits (escape c ++ text) (unit :: units) rest := by
  rcases escape_cases c with
    ⟨letter, stands, form⟩ | ⟨control, form⟩ | ⟨⟨raw, noBackslash, noQuote⟩, form⟩
  · exact ⟨.char c, .char c, form ▸ .short stands spelled⟩
  · obtain ⟨high, next, third, low, digits, value⟩ :=
      @hexUnit?_hexDigits c.toNat (by omega)
    rw [form, digits]
    exact ⟨.code c.toNat, .code control, .code value spelled⟩
  · exact ⟨.char c, .char c, form ▸ .plain raw noQuote noBackslash spelled⟩

theorem spellsUnits_quoted (text rest : List Char) :
    ∃ units, List.Forall₂ Unit16.Spells units text ∧
      SpellsUnits (text.flatMap escape ++ '"' :: rest) units rest := by
  induction text with
  | nil => exact ⟨[], .nil, .closed⟩
  | cons c text ih =>
      obtain ⟨units, stand, spelled⟩ := ih
      obtain ⟨unit, stands, spelledFirst⟩ := spelled.escape c
      refine ⟨unit :: units, .cons stands stand, ?_⟩
      rwa [List.flatMap_cons, List.append_assoc]

/-- The code of a character never takes part in a pair. -/
theorem joinUnits_code (c : Char) (units : List Unit16) :
    joinUnits (.code c.toNat :: units) = (joinUnits units).map (c :: ·) := by
  have valid : c.toNat < 0xD800 ∨ (0xDFFF < c.toNat ∧ c.toNat < 0x110000) := c.valid
  have noHigh : isHighSurrogate c.toNat = false := by simp [isHighSurrogate]; omega
  have noLow : isLowSurrogate c.toNat = false := by simp [isLowSurrogate]; omega
  cases units with
  | nil => simp [joinUnits, noHigh, noLow]
  | cons unit units => cases unit <;> simp [joinUnits, noHigh, noLow]

theorem joinUnits_of_spells {units : List Unit16} {text : List Char}
    (spelled : List.Forall₂ Unit16.Spells units text) : joinUnits units = some text := by
  induction spelled with
  | nil => rfl
  | cons spells _ ih =>
      cases spells with
      | char c => simp [joinUnits, ih]
      | code control => simp [joinUnits_code, ih]

theorem spellsString_quoted (text : String) (rest : List Char) :
    SpellsString (text.toList.flatMap escape ++ '"' :: rest) (some text) rest := by
  obtain ⟨units, stand, spelled⟩ := spellsUnits_quoted text.toList rest
  exact ⟨units, spelled, by simp [stringOf?, joinUnits_of_spells stand]⟩

end WireSchema.Json
