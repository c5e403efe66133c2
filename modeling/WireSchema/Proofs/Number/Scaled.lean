import WireSchema.Number.Scaled
import WireSchema.Proofs.Number.Shortest

namespace WireSchema.Number

/-! Scaling stays in range.

Rounding never takes a number past a double, so a number below a power of two stays below it, and
none is more than doubled.  Digits of 64 bits that a power of ten takes to less than a quarter of
the range are therefore never out of it, and dividing does not take them there.
-/

namespace IsNearest

variable {x : ℚ} {number other : Binary64}

theorem le_double (nearest : IsNearest x number) (finite : other.Finite) (above : x ≤ other.value) :
    number.value ≤ other.value := by
  have distance := nearest.least other finite
  rw [abs_of_nonneg (sub_nonneg.mpr above)] at distance
  linarith [le_abs_self (number.value - x)]

theorem double_le (nearest : IsNearest x number) (finite : other.Finite) (below : other.value ≤ x) :
    other.value ≤ number.value := by
  have distance := nearest.least other finite
  rw [abs_of_nonpos (sub_nonpos.mpr below)] at distance
  linarith [neg_abs_le (number.value - x)]

theorem le_twice (nearest : IsNearest x number) (nonneg : 0 ≤ x) : number.value ≤ 2 * x := by
  have distance := nearest.least .zero isNearest_zero.finite
  have zero : Binary64.zero.value = 0 := by simp [Binary64.value, Binary64.zero]
  rw [zero, zero_sub, abs_neg, abs_of_nonneg nonneg] at distance
  linarith [le_abs_self (number.value - x)]

end IsNearest

theorem Binary64.fraction_spec (number : Binary64) :
    (0 : ℚ) < number.fraction.2 ∧
      (number.fraction.1 : ℚ) / number.fraction.2 = number.value := by
  obtain ⟨mantissa, exponent⟩ := number
  cases exponent with
  | ofNat shift => simp [fraction, value]
  | negSucc shift => simp [fraction, value, zpow_negSucc, div_eq_mul_inv]

theorem Binary64.value_nonneg (number : Binary64) : 0 ≤ number.value := by
  rw [value]
  positivity

section

variable {left right : Binary64}

theorem times?_exists (small : left.value * right.value < 2 ^ 1023) :
    ∃ product, left.times? right = some product := by
  obtain ⟨leftPositive, leftValue⟩ := left.fraction_spec
  obtain ⟨rightPositive, rightValue⟩ := right.fraction_spec
  rw [← leftValue, ← rightValue, div_mul_div_comm] at small
  rw [Binary64.times?]
  refine nearest?_exists ?_ ?_
  · push_cast
    exact mul_pos leftPositive rightPositive
  · push_cast
    exact small

/-- A quotient by a number of at least one is not above the dividend. -/
theorem over?_exists (enough : 1 ≤ right.value) {bound : Binary64} (finite : bound.Finite)
    (small : bound.value < 2 ^ 1023) (below : left.value ≤ bound.value) :
    ∃ quotient, left.over? right = some quotient ∧ quotient.value ≤ bound.value := by
  obtain ⟨leftPositive, leftValue⟩ := left.fraction_spec
  obtain ⟨rightPositive, rightValue⟩ := right.fraction_spec
  have topPositive : (0 : ℚ) < right.fraction.1 := by
    rw [← div_pos_iff_of_pos_right rightPositive, rightValue]
    linarith
  have positive : (0 : ℚ) < (left.fraction.2 * right.fraction.1 : Nat) := by
    push_cast
    exact mul_pos leftPositive topPositive
  have quotient : ((left.fraction.1 * right.fraction.2 : Nat) : ℚ) /
      (left.fraction.2 * right.fraction.1 : Nat) ≤ bound.value := by
    push_cast
    rw [← div_div_div_eq, leftValue, rightValue]
    exact (div_le_self left.value_nonneg enough).trans below
  obtain ⟨number, found⟩ := nearest?_exists positive (quotient.trans_lt small)
  exact ⟨number, found, (nearest?_isNearest positive found).le_double finite quotient⟩

end

theorem powerOfTen?_exists {places : Nat} (few : places ≤ 308) :
    ∃ power, powerOfTen? places = some power ∧ 1 ≤ power.value ∧
      power.value ≤ 2 * 10 ^ places := by
  have unit : (0 : ℚ) < (1 : Nat) := by norm_num
  have found : ∃ power, powerOfTen? places = some power := by
    rcases few.lt_or_eq with fewer | last
    · have range : 10 ^ 307 < 2 ^ 1023 := by decide +kernel
      have inRange : ((Nat.pow 10 places : Nat) : ℚ) / (1 : Nat) < 2 ^ 1023 :=
        calc ((Nat.pow 10 places : Nat) : ℚ) / (1 : Nat) = 10 ^ places := by simp
          _ ≤ 10 ^ 307 := pow_le_pow_right₀ (by norm_num) (Nat.le_pred_of_lt fewer)
          _ < 2 ^ 1023 := by exact_mod_cast range
      exact nearest?_exists unit inRange
    · have some : (powerOfTen? 308).isSome = true := by decide +kernel
      exact last ▸ Option.isSome_iff_exists.mp some
  obtain ⟨power, found⟩ := found
  have nearest := nearest?_isNearest unit found
  rw [Nat.cast_one, div_one, Nat.pow_eq, Nat.cast_pow, Nat.cast_ofNat] at nearest
  have one : Binary64.value ⟨2 ^ 52, -52⟩ = 1 := by norm_num [Binary64.value]
  refine ⟨power, found, ?_, nearest.le_twice (by positivity)⟩
  rw [← one]
  refine nearest.double_le ⟨by decide, by decide, by decide⟩ ?_
  rw [one]
  exact one_le_pow₀ (by norm_num)

theorem shrink?_exists {bound : Binary64} (finite : bound.Finite) (small : bound.value < 2 ^ 1023)
    {number : Binary64} (below : number.value ≤ bound.value) (places : Nat) :
    ∃ result, number.shrink? places = some result := by
  -- Each division leaves fewer places and a number that is still within the bound.
  induction places using Nat.strongRecOn generalizing number with
  | ind places ih =>
      rw [Binary64.shrink?]
      split
      · rename_i few
        obtain ⟨power, found, enough, _⟩ := powerOfTen?_exists few
        obtain ⟨quotient, divided, _⟩ := over?_exists enough finite small below
        exact ⟨quotient, by rw [found, Option.bind_eq_bind, Option.bind_some, divided]⟩
      · rename_i many
        split
        · exact ⟨number, rfl⟩
        · obtain ⟨power, found, enough, _⟩ := powerOfTen?_exists (Nat.le_refl 308)
          obtain ⟨quotient, divided, stays⟩ := over?_exists enough finite small below
          obtain ⟨result, shrunk⟩ := ih (places - 308) (by omega) stays
          refine ⟨result, ?_⟩
          rw [found, Option.bind_eq_bind, Option.bind_some, divided, Option.bind_some, shrunk]

theorem grow?_exists {number : Binary64} {places : Nat} (few : places ≤ 308)
    (small : number.value * 10 ^ places < 2 ^ 1022) :
    ∃ result, number.grow? places = some result := by
  rw [Binary64.grow?]
  split
  · exact ⟨number, rfl⟩
  · obtain ⟨power, found, _, twice⟩ := powerOfTen?_exists few
    have inRange : number.value * power.value < 2 ^ 1023 :=
      calc number.value * power.value ≤ number.value * (2 * 10 ^ places) :=
            mul_le_mul_of_nonneg_left twice number.value_nonneg
        _ = 2 * (number.value * 10 ^ places) := by ring
        _ < 2 * 2 ^ 1022 := mul_lt_mul_of_pos_left small two_pos
        _ = 2 ^ 1023 := (pow_succ' 2 1022).symm
    obtain ⟨product, multiplied⟩ := times?_exists inRange
    refine ⟨product, ?_⟩
    rw [if_neg (by omega), found, Option.bind_eq_bind, Option.bind_some, multiplied]

/-- Digits of 64 bits never overflow alone, only by the power of ten they are scaled with. -/
theorem scaled?_exists {decimal : Decimal} (short : decimal.digits < 2 ^ 64)
    (small : decimal.value < 2 ^ 1021) : ∃ number, decimal.scaled? = some number := by
  obtain ⟨digits, exponent⟩ := decimal
  have unit : (0 : ℚ) < (1 : Nat) := by norm_num
  have digitsBound : (digits : ℚ) ≤ 2 ^ 64 := by exact_mod_cast short.le
  have inRange : (digits : ℚ) / (1 : Nat) < 2 ^ 1023 := by
    rw [Nat.cast_one, div_one]
    exact digitsBound.trans_lt (pow_lt_pow_right₀ one_lt_two (by decide))
  obtain ⟨number, found⟩ := nearest?_exists unit inRange
  have nearest := nearest?_isNearest unit found
  rw [Nat.cast_one, div_one] at nearest
  rw [Decimal.scaled?, found, Option.bind_eq_bind, Option.bind_some]
  cases exponent with
  | negSucc places =>
      have bound : Binary64.value ⟨2 ^ 52, 12⟩ = 2 ^ 64 := by norm_num [Binary64.value]
      have finite : Binary64.Finite ⟨2 ^ 52, 12⟩ := ⟨by decide, by decide, by decide⟩
      refine shrink?_exists finite ?_ (nearest.le_double finite (bound ▸ digitsBound)) _
      rw [bound]
      exact pow_lt_pow_right₀ one_lt_two (by decide)
  | ofNat places =>
      rw [Decimal.value, Int.ofNat_eq_natCast, zpow_natCast] at small
      dsimp only at small ⊢
      rcases Nat.eq_zero_or_pos digits with rfl | positive
      · have zero : number = .zero := by
          rw [nearest?, if_pos rfl, Option.some.injEq] at found
          exact found.symm
        exact ⟨number, by rw [zero]; rfl⟩
      · have order : 2 ^ 1021 < 10 ^ 309 := by decide +kernel
        have power : (10 : ℚ) ^ places < 10 ^ 309 :=
          calc (10 : ℚ) ^ places ≤ digits * 10 ^ places :=
                le_mul_of_one_le_left (by positivity) (by exact_mod_cast positive)
            _ < 2 ^ 1021 := small
            _ < 10 ^ 309 := by exact_mod_cast order
        have few := Nat.le_of_lt_succ ((pow_lt_pow_iff_right₀ (by norm_num)).mp power)
        refine grow?_exists few ?_
        have twice := nearest.le_twice (Nat.cast_nonneg digits)
        calc number.value * 10 ^ places ≤ 2 * digits * 10 ^ places := by gcongr
          _ = 2 * (digits * 10 ^ places) := by ring
          _ < 2 * 2 ^ 1021 := mul_lt_mul_of_pos_left small two_pos
          _ = 2 ^ 1022 := (pow_succ' 2 1021).symm

end WireSchema.Number
