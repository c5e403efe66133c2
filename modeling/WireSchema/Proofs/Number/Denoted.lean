import Mathlib.Data.List.TakeWhile
import WireSchema.Proofs.Number.Digits
import WireSchema.Proofs.Number.Rounding

namespace WireSchema.Number

/-! What a numeral denotes where all numbers are doubles.

It denotes the double nearest to the number that is written.  So it denotes that number if the
number is a double, and else it denotes another one.
-/

/-- The number that a numeral without a sign denotes, if it is in range. -/
def magnitude? (digits : List Char) : Option ℚ := do
  let decimal ← readPositional? digits
  let number ← nearest? decimal.fraction.1 decimal.fraction.2
  some number.value

def denoted? : List Char → Option ℚ
  | '-' :: digits => (magnitude? digits).map fun size => -size
  | digits => magnitude? digits

theorem readPositional?_of_isDigit {digits : List Char} (nonempty : digits ≠ [])
    (isDigit : ∀ c ∈ digits, c.isDigit = true) :
    readPositional? digits = some ⟨digitsValue digits, 0⟩ := by
  have noPoint : ∀ c ∈ digits, (c != '.') = true := by
    intro c member
    have digit := isDigit c member
    refine bne_iff_ne.mpr fun point => ?_
    rw [point] at digit
    exact absurd digit (by decide)
  have whole := List.takeWhile_eq_self_iff.mpr noPoint
  have fraction := List.dropWhile_eq_nil_iff.mpr noPoint
  have all : digits.all Char.isDigit = true := List.all_eq_true.mpr isDigit
  simp [readPositional?, whole, fraction, all, nonempty]

theorem readPositional?_toDigits (value : Nat) :
    readPositional? (Nat.toDigits 10 value) = some ⟨value, 0⟩ := by
  rw [readPositional?_of_isDigit Nat.toDigits_ne_nil isDigit_of_mem_toDigits, digitsValue_toDigits]

theorem magnitude?_toDigits {value : Nat} {number : Binary64}
    (found : nearest? value 1 = some number) :
    magnitude? (Nat.toDigits 10 value) = some number.value := by
  have fraction : Decimal.fraction ⟨value, 0⟩ = (value, 1) := by simp [Decimal.fraction]
  rw [magnitude?, readPositional?_toDigits, Option.bind_eq_bind, Option.bind_some, fraction, found]
  rfl

theorem denoted?_toString {value : Int} {number : Binary64}
    (found : nearest? value.natAbs 1 = some number) :
    denoted? (toString value).toList =
      some (if value < 0 then -number.value else number.value) := by
  rw [toList_toString_int]
  split
  · rw [List.singleton_append, denoted?, magnitude?_toDigits found, Option.map_some]
  · rw [List.nil_append, denoted?, magnitude?_toDigits found]
    simpa using toDigits_append_ne_minus value.natAbs []

theorem isDouble_abs_iff (x : ℚ) : IsDouble |x| ↔ IsDouble x := by
  rw [IsDouble, IsDouble, abs_abs]

/-- The numeral of a whole number denotes it exactly when it is a double. -/
theorem toString_denotes {value : Int} (inRange : (value.natAbs : ℚ) < 2 ^ 1023) :
    ∃ number, denoted? (toString value).toList = some number ∧
      (number = value ↔ IsDouble value) := by
  have unit : (0 : ℚ) < (1 : Nat) := by norm_num
  have quotient : (value.natAbs : ℚ) / (1 : Nat) = value.natAbs := by rw [Nat.cast_one, div_one]
  have size : (value.natAbs : ℚ) = |(value : ℚ)| := by rw [Nat.cast_natAbs, Int.cast_abs]
  obtain ⟨double, found⟩ := nearest?_exists unit (quotient.trans_lt inRange)
  have nearest := nearest?_isNearest unit found
  rw [quotient, size] at nearest
  have exact := (nearest.value_eq_iff (abs_nonneg _)).trans (isDouble_abs_iff _)
  refine ⟨_, denoted?_toString found, ?_⟩
  split
  · rename_i negative
    rw [abs_of_neg (by exact_mod_cast negative)] at exact
    exact neg_eq_iff_eq_neg.trans exact
  · rename_i natural
    rwa [abs_of_nonneg (by exact_mod_cast not_lt.mp natural)] at exact

end WireSchema.Number
