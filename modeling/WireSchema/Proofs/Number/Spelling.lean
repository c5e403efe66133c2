import Mathlib.Algebra.Ring.Nat
import WireSchema.Proofs.Number.Digits

namespace WireSchema.Number

/-! The form of decimal numerals without an exponent.

A numeral has no zero in front of its whole part, unless that is the zero alone, and none at the
end of its fraction.  Digits without a zero in front are the digits of their own value.
-/

/-- The digits of a whole number, with no zero in front of others. -/
inductive IsWhole : List Char → Prop
  | zero : IsWhole ['0']
  | digits {first : Char} {rest : List Char} : first.isDigit = true → first ≠ '0' →
      (∀ c ∈ rest, c.isDigit = true) → IsWhole (first :: rest)

/-- Nothing, or a point and digits up to one that is not zero. -/
inductive IsFraction : List Char → Prop
  | none : IsFraction []
  | places {digits : List Char} {last : Char} : (∀ c ∈ digits, c.isDigit = true) →
      last.isDigit = true → last ≠ '0' → IsFraction ('.' :: (digits ++ [last]))

def IsSign (text : List Char) : Prop := text = [] ∨ text = ['-']

inductive IsNumeral : List Char → Prop
  | parts {sign whole fraction : List Char} : IsSign sign → IsWhole whole → IsFraction fraction →
      IsNumeral (sign ++ (whole ++ fraction))

theorem IsWhole.isDigit {digits : List Char} (whole : IsWhole digits) :
    ∀ c ∈ digits, c.isDigit = true := by
  cases whole with
  | zero => exact List.forall_mem_singleton.mpr rfl
  | digits first _ rest => exact List.forall_mem_cons.mpr ⟨first, rest⟩

theorem IsWhole.ne_nil {digits : List Char} (whole : IsWhole digits) : digits ≠ [] := by
  cases whole with
  | zero => exact List.cons_ne_nil _ _
  | digits _ _ _ => exact List.cons_ne_nil _ _

theorem isWhole_iff {digits : List Char} (nonempty : digits ≠ [])
    (isDigit : ∀ c ∈ digits, c.isDigit = true) :
    IsWhole digits ↔ digits = ['0'] ∨ digits.head? ≠ some '0' := by
  constructor
  · intro whole
    cases whole with
    | zero => exact .inl rfl
    | digits _ nonzero _ => exact .inr (by simpa using nonzero)
  · intro form
    cases form with
    | inl zero => exact zero ▸ .zero
    | inr nonzero =>
        obtain ⟨first, rest, rfl⟩ := List.exists_cons_of_ne_nil nonempty
        obtain ⟨firstDigit, restDigits⟩ := List.forall_mem_cons.mp isDigit
        exact .digits firstDigit (by simpa using nonzero) restDigits

theorem isWhole_toDigits (value : Nat) : IsWhole (Nat.toDigits 10 value) := by
  rw [isWhole_iff Nat.toDigits_ne_nil isDigit_of_mem_toDigits]
  rcases Nat.eq_zero_or_pos value with rfl | positive
  · exact .inl rfl
  · obtain ⟨first, rest, form, nonzero⟩ := toDigits_opens positive
    exact .inr (by simpa [form] using nonzero)

theorem digitsValue_eq (digits : List Char) : digitsValue digits = Nat.ofDigitChars 10 digits 0 := by
  simp only [Nat.ofDigitChars_eq_foldl, digitsValue, Nat.mul_comm 10]

theorem digitsValue_append (left right : List Char) :
    digitsValue (left ++ right) = 10 ^ right.length * digitsValue left + digitsValue right := by
  rw [digitsValue_eq, digitsValue_eq, digitsValue_eq, Nat.ofDigitChars_append]
  exact Nat.ofDigitChars_eq_ofDigitChars_zero

theorem digitChar_of_isDigit {c : Char} (digit : c.isDigit = true) :
    c.toNat - '0'.toNat < 10 ∧ Nat.digitChar (c.toNat - '0'.toNat) = c := by
  have range : 48 ≤ c.toNat ∧ c.toNat ≤ 57 := Char.isDigit_iff_toNat.mp digit
  have zero : '0'.toNat = 48 := rfl
  refine ⟨by omega, Char.toNat_inj.mp ?_⟩
  rw [Nat.toNat_digitChar_of_lt_ten (by omega)]
  omega

/-- Digits after those of a number other than zero are digits of the number they lead to. -/
theorem toDigits_append {digits : List Char} (isDigit : ∀ c ∈ digits, c.isDigit = true) {value : Nat}
    (positive : 0 < value) :
    Nat.toDigits 10 value ++ digits = Nat.toDigits 10 (Nat.ofDigitChars 10 digits value) := by
  induction digits generalizing value with
  | nil => rw [List.append_nil, Nat.ofDigitChars_nil]
  | cons c digits ih =>
      obtain ⟨first, rest⟩ := List.forall_mem_cons.mp isDigit
      obtain ⟨small, char⟩ := digitChar_of_isDigit first
      have longer := Nat.toDigits_append_toDigits (by decide) positive small
      rw [Nat.toDigits_of_lt_base small, char] at longer
      rw [Nat.ofDigitChars_cons, ← ih rest (by omega), ← longer, List.append_assoc,
        List.singleton_append]

theorem IsWhole.toDigits {digits : List Char} (whole : IsWhole digits) :
    Nat.toDigits 10 (digitsValue digits) = digits := by
  rw [digitsValue_eq]
  cases whole with
  | zero => rfl
  | @digits first rest firstDigit nonzero restDigits =>
      obtain ⟨small, char⟩ := digitChar_of_isDigit firstDigit
      have positive : 0 < first.toNat - '0'.toNat := by
        refine Nat.pos_of_ne_zero fun zero => nonzero ?_
        rw [← char, zero]
        rfl
      rw [Nat.ofDigitChars_cons, Nat.mul_zero, Nat.zero_add, ← toDigits_append restDigits positive,
        Nat.toDigits_of_lt_base small, char, List.singleton_append]

/-- A decimal that is a whole number is written as one. -/
theorem positional_of_nonneg {decimal : Decimal} (nonneg : 0 ≤ decimal.exponent) :
    decimal.positional = Nat.toDigits 10 (decimal.digits * 10 ^ decimal.exponent.toNat) := by
  obtain ⟨digits, exponent⟩ := decimal
  obtain ⟨zeros, rfl⟩ := Int.eq_ofNat_of_zero_le nonneg
  rcases Nat.eq_zero_or_pos digits with rfl | positive
  · simp [Decimal.positional]
  · have isDigit : ∀ c ∈ List.replicate zeros '0', c.isDigit = true := by
      intro c member
      rw [List.eq_of_mem_replicate member]
      rfl
    have form : Decimal.positional ⟨digits, (zeros : Int)⟩ =
        Nat.toDigits 10 digits ++ List.replicate zeros '0' := if_neg (Nat.ne_of_gt positive)
    rw [form, toDigits_append isDigit positive, Nat.ofDigitChars_replicate_zero, Nat.mul_comm,
      Int.toNat_natCast]

theorem toDigits_closes {value : Nat} (last : value % 10 ≠ 0) :
    ∃ front last, Nat.toDigits 10 value = front ++ [last] ∧ last ≠ '0' := by
  have nonzero : Nat.digitChar (value % 10) ≠ '0' := fun zero => last (Nat.digitChar_eq_zero.mp zero)
  rw [Nat.toDigits_eq_if (by decide)]
  split
  · rename_i small
    rw [Nat.mod_eq_of_lt small] at nonzero
    exact ⟨[], _, rfl, nonzero⟩
  · exact ⟨_, _, rfl, nonzero⟩

/-- The digits, filled up with zeros until one is left for the whole part. -/
def padded (places : Nat) (digits : List Char) : List Char :=
  List.replicate (places + 2 - digits.length) '0' ++ digits

theorem isWhole_take_padded {first : Char} {rest : List Char} (firstDigit : first.isDigit = true)
    (nonzero : first ≠ '0') (restDigits : ∀ c ∈ rest, c.isDigit = true) (places : Nat) :
    IsWhole ((padded places (first :: rest)).take
      ((padded places (first :: rest)).length - (places + 1))) := by
  have length : (first :: rest).length = rest.length + 1 := List.length_cons
  rw [padded]
  rcases Nat.lt_or_ge places rest.length with long | short
  · have noFill : places + 2 - (first :: rest).length = 0 := by omega
    have count : (first :: rest).length - (places + 1) = rest.length - (places + 1) + 1 := by omega
    rw [noFill, List.replicate_zero, List.nil_append, count, List.take_succ_cons]
    exact .digits firstDigit nonzero fun c member => restDigits c (List.mem_of_mem_take member)
  · have fill : places + 2 - (first :: rest).length = places - rest.length + 1 := by omega
    have count : (List.replicate (places - rest.length + 1) '0' ++ first :: rest).length -
        (places + 1) = 1 := by
      rw [List.length_append, List.length_replicate]
      omega
    rw [fill, count, List.replicate_succ]
    exact .zero

theorem isFraction_drop_padded {front : List Char} {last : Char}
    (frontDigits : ∀ c ∈ front, c.isDigit = true) (lastDigit : last.isDigit = true)
    (nonzero : last ≠ '0') (places : Nat) :
    IsFraction ('.' :: (padded places (front ++ [last])).drop
      ((padded places (front ++ [last])).length - (places + 1))) := by
  rw [padded, ← List.append_assoc, List.drop_append_of_le_length]
  · refine .places (fun c member => ?_) lastDigit nonzero
    rcases List.mem_append.mp (List.mem_of_mem_drop member) with zero | digit
    · rw [List.eq_of_mem_replicate zero]
      rfl
    · exact frontDigits c digit
  · simp only [List.length_append, List.length_singleton]
    omega

theorem positional_of_neg {decimal : Decimal} (negative : decimal.exponent < 0)
    (last : decimal.digits % 10 ≠ 0) :
    ∃ whole fraction, IsWhole whole ∧ IsFraction fraction ∧
      decimal.positional = whole ++ fraction := by
  obtain ⟨digits, exponent⟩ := decimal
  obtain ⟨places, rfl⟩ := Int.eq_negSucc_of_lt_zero negative
  dsimp only at last
  have isDigit := @isDigit_of_mem_toDigits digits
  refine ⟨(padded places (natDigits digits)).take _, '.' :: (padded places (natDigits digits)).drop _,
    ?_, ?_, rfl⟩
  · obtain ⟨first, rest, opens, nonzero⟩ := @toDigits_opens digits (by omega)
    rw [opens] at isDigit
    obtain ⟨firstDigit, restDigits⟩ := List.forall_mem_cons.mp isDigit
    rw [natDigits, opens]
    exact isWhole_take_padded firstDigit nonzero restDigits places
  · obtain ⟨front, final, closes, nonzero⟩ := toDigits_closes last
    rw [closes] at isDigit
    obtain ⟨frontDigits, finalDigit⟩ := List.forall_mem_append.mp isDigit
    rw [natDigits, closes]
    exact isFraction_drop_padded frontDigits (finalDigit final (List.mem_singleton.mpr rfl)) nonzero
      places

/-- The numeral of a decimal that ends in no needless zero. -/
theorem isNumeral_positional {decimal : Decimal}
    (last : decimal.exponent < 0 → decimal.digits % 10 ≠ 0) {sign : List Char}
    (isSign : IsSign sign) : IsNumeral (sign ++ decimal.positional) := by
  by_cases negative : decimal.exponent < 0
  · obtain ⟨whole, fraction, isWhole, isFraction, form⟩ := positional_of_neg negative (last negative)
    rw [form]
    exact .parts isSign isWhole isFraction
  · rw [positional_of_nonneg (Int.not_lt.mp negative), ← List.append_nil (Nat.toDigits 10 _)]
    exact .parts isSign (isWhole_toDigits _) .none

end WireSchema.Number
