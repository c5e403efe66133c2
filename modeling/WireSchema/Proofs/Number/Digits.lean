import WireSchema.Number.Positional

namespace WireSchema.Number

/-! The digits of whole numbers.

A numeral is a sign, if there is one, in front of the digits of the absolute value.  The
digits tell the value, and they start with a zero for no number but zero itself.
-/

theorem toList_toString_int (value : Int) :
    (toString value).toList =
      (if value < 0 then ['-'] else []) ++ Nat.toDigits 10 value.natAbs := by
  rw [Int.toString_eq_repr, Int.repr_eq_if]
  by_cases negative : value < 0
  · have notPositive : ¬ 0 ≤ value := by omega
    have size : (-value).toNat = value.natAbs := by omega
    simp [negative, notPositive, size, Nat.toList_repr]
  · have positive : 0 ≤ value := by omega
    have size : value.toNat = value.natAbs := by omega
    simp [negative, positive, size, Nat.toList_repr]

theorem isDigit_of_mem_toDigits {value : Nat} : ∀ c ∈ Nat.toDigits 10 value, c.isDigit = true :=
  fun _ member => Nat.isDigit_of_mem_toDigits (by decide) (by decide) member

def inNumeral (c : Char) : Bool := c.isDigit || c == '-'

theorem inNumeral_of_mem (value : Int) : ∀ c ∈ (toString value).toList, inNumeral c = true := by
  intro c member
  rw [toList_toString_int, List.mem_append] at member
  rcases member with sign | digit
  · split at sign
    · rw [List.mem_singleton.mp sign]
      rfl
    · cases sign
  · simp [inNumeral, isDigit_of_mem_toDigits c digit]

theorem toString_int_opens (value : Int) :
    ∃ first rest, (toString value).toList = first :: rest ∧ inNumeral first = true := by
  have nonempty : (toString value).toList ≠ [] := by
    rw [toList_toString_int]
    simp [Nat.toDigits_ne_nil]
  obtain ⟨first, rest, form⟩ := List.exists_cons_of_ne_nil nonempty
  exact ⟨first, rest, form, inNumeral_of_mem value first (form ▸ List.mem_cons_self)⟩

theorem digits_append_ne_minus {digits : List Char} (nonempty : digits ≠ [])
    (isDigit : ∀ c ∈ digits, c.isDigit = true) (after text : List Char) :
    digits ++ after ≠ '-' :: text := by
  intro signed
  obtain ⟨first, rest, rfl⟩ := List.exists_cons_of_ne_nil nonempty
  have digit := isDigit first List.mem_cons_self
  rw [List.cons_append, List.cons.injEq] at signed
  rw [signed.1] at digit
  exact absurd digit (by decide)

theorem toDigits_append_ne_minus (value : Nat) (after text : List Char) :
    Nat.toDigits 10 value ++ after ≠ '-' :: text :=
  digits_append_ne_minus Nat.toDigits_ne_nil isDigit_of_mem_toDigits after text

theorem toDigits_injective {left right : Nat}
    (same : Nat.toDigits 10 left = Nat.toDigits 10 right) : left = right := by
  have read := congrArg (Nat.ofDigitChars 10 · 0) same
  simpa only [Nat.ofDigitChars_ten_toDigits] using read

theorem toString_int_injective {left right : Int} (same : toString left = toString right) :
    left = right := by
  have noSign (count : Nat) (rest : List Char) : Nat.toDigits 10 count ≠ '-' :: rest := by
    simpa using toDigits_append_ne_minus count [] rest
  have spelled := congrArg String.toList same
  rw [toList_toString_int, toList_toString_int] at spelled
  split at spelled <;> split at spelled
  · have sizes := toDigits_injective (List.cons.inj spelled).2
    omega
  · exact absurd spelled.symm (noSign _ _)
  · exact absurd spelled (noSign _ _)
  · have sizes := toDigits_injective spelled
    omega

theorem digitsValue_toDigits (value : Nat) : digitsValue (Nat.toDigits 10 value) = value := by
  have read := Nat.ofDigitChars_ten_toDigits (n := value)
  simpa only [Nat.ofDigitChars_eq_foldl, digitsValue, Nat.mul_comm 10] using read

theorem toDigits_opens {value : Nat} (positive : 0 < value) :
    ∃ first rest, Nat.toDigits 10 value = first :: rest ∧ first ≠ '0' := by
  induction value using Nat.strongRecOn with
  | ind value ih =>
      by_cases single : value < 10
      · have nonzero : ∀ digit < 10, 0 < digit → Nat.digitChar digit ≠ '0' := by decide
        exact ⟨_, [], Nat.toDigits_of_lt_base single, nonzero value single positive⟩
      · have smaller : value / 10 < value := by omega
        obtain ⟨first, rest, form, nonzero⟩ := ih (value / 10) smaller (by omega)
        rw [Nat.toDigits_of_base_le (by decide) (by omega), form]
        exact ⟨first, _, rfl, nonzero⟩

end WireSchema.Number
