import Mathlib.Algebra.Order.Field.Power
import Mathlib.Data.Rat.Cast.Order
import Mathlib.Tactic.Linarith
import Mathlib.Tactic.Positivity
import Mathlib.Tactic.Ring
import WireSchema.Number.Binary64

namespace WireSchema.Number

/-! Rounding gives the nearest double.

A quotient is set on a scale on which it has a whole part of 53 bits, and is rounded to a whole
number there.  A double whose exponent is not below that of the scale is a whole number on it,
so it is no nearer.  Every other double lies below the least number of 53 bits, which is a whole
number itself and stands between that double and the quotient.
-/

namespace Binary64

def value (number : Binary64) : ℚ := number.mantissa * 2 ^ number.exponent

theorem mantissaBound_eq : (mantissaBound : ℚ) = 2 * normalBound := by
  norm_num [mantissaBound, normalBound]

structure Finite (number : Binary64) : Prop where
  mantissa_lt : number.mantissa < mantissaBound
  least_le : leastExponent ≤ number.exponent
  le_greatest : number.exponent ≤ greatestExponent

end Binary64

/-- No double is nearer to `x`, and if another one is as near then the mantissa is even. -/
structure IsNearest (x : ℚ) (number : Binary64) : Prop where
  finite : number.Finite
  least : ∀ other : Binary64, other.Finite → |number.value - x| ≤ |other.value - x|
  even : ∀ other : Binary64, other.Finite → other.value ≠ number.value →
    |number.value - x| = |other.value - x| → number.mantissa % 2 = 0

/-- The number is a double, or the negative of one. -/
def IsDouble (x : ℚ) : Prop := ∃ number : Binary64, number.Finite ∧ number.value = |x|

theorem div_eq_add {top bottom : Nat} (positive : (0 : ℚ) < bottom) :
    (top : ℚ) / bottom = (top / bottom : Nat) + ((top % bottom : Nat) : ℚ) / bottom := by
  have whole : (top : ℚ) = bottom * (top / bottom : Nat) + (top % bottom : Nat) := by
    exact_mod_cast (Nat.div_add_mod top bottom).symm
  conv_lhs => rw [whole]
  rw [add_div, mul_div_cancel_left₀ _ positive.ne']

theorem roundEven_near (top : Nat) {bottom : Nat} (positive : (0 : ℚ) < bottom) :
    |(roundEven top bottom : ℚ) - top / bottom| ≤ 1 / 2 ∧
      (|(roundEven top bottom : ℚ) - top / bottom| = 1 / 2 → roundEven top bottom % 2 = 0) := by
  have below : (((top % bottom : Nat) : ℚ) / bottom < 1 / 2 ↔ 2 * (top % bottom) < bottom) := by
    rw [div_lt_div_iff₀ positive two_pos, one_mul, mul_comm]
    exact_mod_cast Iff.rfl
  have above : (1 / 2 < ((top % bottom : Nat) : ℚ) / bottom ↔ bottom < 2 * (top % bottom)) := by
    rw [div_lt_div_iff₀ two_pos positive, one_mul, mul_comm]
    exact_mod_cast Iff.rfl
  have nonneg : 0 ≤ ((top % bottom : Nat) : ℚ) / bottom := by positivity
  have small : ((top % bottom : Nat) : ℚ) / bottom < 1 := by
    rw [div_lt_one positive]
    exact_mod_cast Nat.mod_lt top (by exact_mod_cast positive)
  rw [div_eq_add positive]
  generalize ((top % bottom : Nat) : ℚ) / bottom = part at below above nonneg small
  rw [roundEven]
  simp only [← below, ← above]
  rcases lt_trichotomy part (1 / 2) with down | tie | up
  · rw [if_pos down, sub_add_cancel_left, abs_neg, abs_of_nonneg nonneg]
    exact ⟨down.le, fun half => absurd half down.ne⟩
  · rw [if_neg tie.not_lt, if_neg tie.not_gt, tie]
    refine ⟨?_, fun _ => by omega⟩
    rcases Nat.mod_two_eq_zero_or_one (top / bottom) with even | odd
    · rw [even]
      norm_num
    · rw [odd]
      norm_num
  · have distance : ((top / bottom + 1 : Nat) : ℚ) - ((top / bottom : Nat) + part) = 1 - part := by
      push_cast
      ring
    rw [if_neg up.not_gt, if_pos up, distance, abs_of_nonneg (by linarith)]
    exact ⟨by linarith, fun half => by linarith⟩

/-- Whole numbers lie one apart, so half the distance decides. -/
theorem nearest_whole {y : ℚ} {rounded : Nat} (near : |(rounded : ℚ) - y| ≤ 1 / 2) {other : Nat}
    (differs : other ≠ rounded) : 1 / 2 ≤ |(other : ℚ) - y| := by
  have apart : (1 : ℚ) ≤ |(other : ℚ) - rounded| := by
    have whole : (1 : ℤ) ≤ |(other : ℤ) - rounded| := by
      have nonzero : (other : ℤ) - rounded ≠ 0 := by omega
      exact Int.one_le_abs nonzero
    exact_mod_cast whole
  have triangle := abs_sub_le (other : ℚ) y rounded
  rw [abs_sub_comm y] at triangle
  linarith

theorem descale_spec (numerator : Nat) {denominator : Nat} (positive : (0 : ℚ) < denominator)
    (exponent : Int) :
    (0 : ℚ) < (descale numerator denominator exponent).2 ∧
      ((descale numerator denominator exponent).1 : ℚ) /
        (descale numerator denominator exponent).2 = numerator / denominator / 2 ^ exponent := by
  cases exponent with
  | ofNat shift =>
      simp only [descale, Nat.pow_eq, Nat.cast_mul, Nat.cast_pow, Nat.cast_ofNat,
        Int.ofNat_eq_natCast, zpow_natCast]
      exact ⟨by positivity, (div_div _ _ _).symm⟩
  | negSucc shift =>
      simp only [descale, Nat.pow_eq, Nat.cast_mul, Nat.cast_pow, Nat.cast_ofNat, zpow_negSucc]
      exact ⟨positive, by rw [div_inv_eq_mul, div_mul_eq_mul_div]⟩

/-- On the scale of `2 ^ exponent` the number has a whole part of 53 bits, or as many as the
least exponent leaves to it. -/
structure Fits (x : ℚ) (exponent : Int) : Prop where
  least_le : Binary64.leastExponent ≤ exponent
  lt_bound : x / 2 ^ exponent < Binary64.mantissaBound
  normal : exponent = Binary64.leastExponent ∨ Binary64.normalBound ≤ x / 2 ^ exponent

theorem log2_bounds {value : Nat} (nonzero : value ≠ 0) :
    (2 : ℚ) ^ (value.log2 : Int) ≤ value ∧ (value : ℚ) < 2 * 2 ^ (value.log2 : Int) := by
  have low := Nat.log2_self_le nonzero
  have high := Nat.lt_log2_self (n := value)
  rw [Nat.pow_succ'] at high
  rw [zpow_natCast]
  exact ⟨by exact_mod_cast low, by exact_mod_cast high⟩

/-- The difference of the binary logarithms is at most one too large. -/
theorem quotient_bounds {numerator denominator : Nat} (nonzero : numerator ≠ 0)
    (positive : (0 : ℚ) < denominator) :
    let guess : Int := (numerator.log2 : Int) - (denominator.log2 : Int) - 52
    (numerator : ℚ) / denominator / 2 ^ guess < Binary64.mantissaBound ∧
      Binary64.mantissaBound < 4 * ((numerator : ℚ) / denominator / 2 ^ guess) := by
  intro guess
  obtain ⟨topLow, topHigh⟩ := log2_bounds nonzero
  obtain ⟨bottomLow, bottomHigh⟩ := log2_bounds (by exact_mod_cast positive.ne')
  have power : (2 : ℚ) ^ (numerator.log2 : Int) =
      2 ^ (denominator.log2 : Int) * 2 ^ guess * 2 ^ 52 := by
    rw [← zpow_natCast (2 : ℚ) 52, ← zpow_add₀ two_ne_zero, ← zpow_add₀ two_ne_zero]
    congr 1
    omega
  have scale : (0 : ℚ) < 2 ^ guess := by positivity
  rw [power] at topLow topHigh
  generalize (2 : ℚ) ^ (denominator.log2 : Int) = unit at *
  generalize (2 : ℚ) ^ guess = step at *
  rw [div_div, div_lt_iff₀ (by positivity), ← mul_div_assoc, lt_div_iff₀ (by positivity)]
  simp only [Binary64.mantissaBound]
  push_cast
  constructor
  · nlinarith
  · nlinarith

theorem Fits.of_exact {x : ℚ} {exact : Int} (nonneg : 0 ≤ x)
    (lt_bound : x / 2 ^ exact < Binary64.mantissaBound)
    (normal : Binary64.normalBound ≤ x / 2 ^ exact) :
    Fits x (max exact Binary64.leastExponent) := by
  rcases le_total Binary64.leastExponent exact with above | below
  · rw [max_eq_left above]
    exact ⟨above, lt_bound, .inr normal⟩
  · rw [max_eq_right below]
    have coarser : (2 : ℚ) ^ exact ≤ 2 ^ Binary64.leastExponent :=
      zpow_le_zpow_right₀ one_le_two below
    have smaller : x / 2 ^ Binary64.leastExponent ≤ x / 2 ^ exact := by gcongr
    exact ⟨le_rfl, smaller.trans_lt lt_bound, .inl rfl⟩

/-- A number that is too small for the scale of `2 ^ bound` is set on a finer one. -/
theorem Fits.exponent_lt {x : ℚ} {exponent bound : Int} (fits : Fits x exponent)
    (aboveLeast : Binary64.leastExponent < bound) (small : x < Binary64.normalBound * 2 ^ bound) :
    exponent < bound := by
  by_contra! coarse
  have normal := fits.normal.resolve_left (by omega)
  rw [le_div_iff₀ (by positivity)] at normal
  have steps : (2 : ℚ) ^ bound ≤ 2 ^ exponent := zpow_le_zpow_right₀ one_le_two coarse
  have large : Binary64.normalBound * (2 : ℚ) ^ bound ≤ x :=
    calc Binary64.normalBound * (2 : ℚ) ^ bound ≤ Binary64.normalBound * 2 ^ exponent := by gcongr
      _ ≤ x := normal
  exact absurd large (not_le.mpr small)

theorem exponentFor_fits {numerator denominator : Nat} (nonzero : numerator ≠ 0)
    (positive : (0 : ℚ) < denominator) :
    Fits (numerator / denominator) (exponentFor numerator denominator) := by
  obtain ⟨lt_bound, normal⟩ := quotient_bounds nonzero positive
  rw [exponentFor]
  generalize (numerator.log2 : Int) - (denominator.log2 : Int) - 52 = guess at *
  obtain ⟨bottom, quotient⟩ := descale_spec numerator positive guess
  have small : ((descale numerator denominator guess).1 / (descale numerator denominator guess).2 <
      Binary64.normalBound) ↔ (numerator : ℚ) / denominator / 2 ^ guess < Binary64.normalBound := by
    rw [← quotient, Nat.div_lt_iff_lt_mul (by exact_mod_cast bottom), div_lt_iff₀ bottom]
    exact_mod_cast Iff.rfl
  have bounds := Binary64.mantissaBound_eq
  simp only [small]
  refine .of_exact (by positivity) ?_ ?_
  · split
    · rename_i less
      rw [zpow_sub_one₀ two_ne_zero, div_mul_eq_div_div, div_inv_eq_mul]
      linarith
    · exact lt_bound
  · split
    · rw [zpow_sub_one₀ two_ne_zero, div_mul_eq_div_div, div_inv_eq_mul]
      linarith
    · rename_i enough
      exact not_lt.mp enough

/-- What rounding makes of a number on the scale on which it fits. -/
structure Rounds (x : ℚ) (exponent : Int) (rounded : Nat) : Prop where
  near : |(rounded : ℚ) - x / 2 ^ exponent| ≤ 1 / 2
  even : |(rounded : ℚ) - x / 2 ^ exponent| = 1 / 2 → rounded % 2 = 0

theorem Rounds.le_bound {x : ℚ} {exponent : Int} {rounded : Nat} (fits : Fits x exponent)
    (rounds : Rounds x exponent rounded) : rounded ≤ Binary64.mantissaBound := by
  by_contra! above
  have next : (Binary64.mantissaBound : ℚ) + 1 ≤ rounded := by exact_mod_cast above
  have near := (abs_le.mp rounds.near).2
  have bound := fits.lt_bound
  linarith

/-- The doubles on the scale of `2 ^ exponent`, and those that are too small for it. -/
theorem Binary64.Finite.whole_or_small {other : Binary64} (finite : other.Finite) (exponent : Int) :
    (∃ whole : Nat, other.value = whole * 2 ^ exponent) ∨
      other.exponent < exponent ∧ other.value < normalBound * 2 ^ exponent := by
  rcases le_or_gt exponent other.exponent with fine | coarse
  · refine .inl ⟨other.mantissa * 2 ^ (other.exponent - exponent).toNat, ?_⟩
    have power : (2 : ℚ) ^ other.exponent =
        2 ^ (other.exponent - exponent).toNat * 2 ^ exponent := by
      rw [← zpow_natCast, ← zpow_add₀ two_ne_zero]
      congr 1
      omega
    rw [value, power]
    push_cast
    ring
  · refine .inr ⟨coarse, ?_⟩
    have mantissa : (other.mantissa : ℚ) < 2 * normalBound := by
      have bound : (other.mantissa : ℚ) < mantissaBound := by exact_mod_cast finite.mantissa_lt
      exact bound.trans_eq mantissaBound_eq
    have power : (2 : ℚ) * 2 ^ other.exponent ≤ 2 ^ exponent := by
      rw [← zpow_one_add₀ two_ne_zero]
      exact zpow_le_zpow_right₀ one_le_two (by omega)
    calc other.value = other.mantissa * 2 ^ other.exponent := rfl
      _ < 2 * normalBound * 2 ^ other.exponent := by gcongr
      _ = normalBound * (2 * 2 ^ other.exponent) := by ring
      _ ≤ normalBound * 2 ^ exponent := by gcongr

/-- Any other double is farther off, or it is as far off and the rounded number is even. -/
theorem Rounds.nearer {x : ℚ} {exponent : Int} {rounded : Nat} (fits : Fits x exponent)
    (rounds : Rounds x exponent rounded) {other : Binary64} (finite : other.Finite)
    (differs : other.value ≠ rounded * 2 ^ exponent) :
    |rounded * 2 ^ exponent - x| < |other.value - x| ∨
      |rounded * 2 ^ exponent - x| = |other.value - x| ∧ rounded % 2 = 0 := by
  have scale : (0 : ℚ) < 2 ^ exponent := by positivity
  have distance (whole : ℚ) :
      |whole * 2 ^ exponent - x| = |whole - x / 2 ^ exponent| * 2 ^ exponent := by
    rw [← abs_of_pos scale, ← abs_mul, abs_of_pos scale, sub_mul, div_mul_cancel₀ _ scale.ne']
  obtain ⟨whole, same⟩ | ⟨coarse, small⟩ := finite.whole_or_small exponent
  · rw [same] at differs
    have half := nearest_whole rounds.near fun equal : whole = rounded => differs (by rw [equal])
    rw [same, distance, distance, mul_lt_mul_iff_left₀ scale, mul_left_inj' scale.ne']
    rcases (rounds.near.trans half).lt_or_eq with less | tie
    · exact .inl less
    · exact .inr ⟨tie, rounds.even (le_antisymm rounds.near (tie ▸ half))⟩
  · have notLeast : exponent ≠ Binary64.leastExponent := by
      have least := finite.least_le
      omega
    have normal := fits.normal.resolve_left notLeast
    have between :
        |(rounded : ℚ) - x / 2 ^ exponent| ≤ x / 2 ^ exponent - Binary64.normalBound := by
      rw [← abs_of_nonneg (sub_nonneg.mpr normal), abs_sub_comm _ (Binary64.normalBound : ℚ)]
      by_cases same : Binary64.normalBound = rounded
      · rw [same]
      · exact rounds.near.trans (nearest_whole rounds.near same)
    refine .inl ?_
    calc |rounded * 2 ^ exponent - x| = |(rounded : ℚ) - x / 2 ^ exponent| * 2 ^ exponent :=
          distance rounded
      _ ≤ (x / 2 ^ exponent - Binary64.normalBound) * 2 ^ exponent := by gcongr
      _ = x - Binary64.normalBound * 2 ^ exponent := by
          rw [sub_mul, div_mul_cancel₀ _ scale.ne']
      _ < x - other.value := by linarith
      _ ≤ |other.value - x| := by
          rw [abs_sub_comm]
          exact le_abs_self _

theorem Rounds.isNearest {x : ℚ} {exponent : Int} {rounded : Nat} {number : Binary64}
    (fits : Fits x exponent) (rounds : Rounds x exponent rounded) (finite : number.Finite)
    (value : number.value = rounded * 2 ^ exponent)
    (even : rounded % 2 = 0 → number.mantissa % 2 = 0) : IsNearest x number where
  finite := finite
  least other otherFinite := by
    rw [value]
    by_cases same : other.value = rounded * 2 ^ exponent
    · rw [same]
    · obtain less | ⟨tie, _⟩ := rounds.nearer fits otherFinite same
      · exact less.le
      · exact tie.le
  even other otherFinite differs tie := by
    rw [value] at differs tie
    obtain less | ⟨_, isEven⟩ := rounds.nearer fits otherFinite differs
    · exact absurd tie less.ne
    · exact even isEven

theorem isNearest_zero : IsNearest 0 .zero where
  finite := ⟨by decide, by decide, by decide⟩
  least other _ := by
    have value : Binary64.zero.value = 0 := by simp [Binary64.value, Binary64.zero]
    rw [value, sub_self, abs_zero]
    exact abs_nonneg _
  even _ _ _ _ := rfl

/-- The double of a mantissa that rounding may have taken up to the next power of two. -/
def carry (mantissa : Nat) (exponent : Int) : Binary64 :=
  if mantissa = Binary64.mantissaBound then ⟨Binary64.normalBound, exponent + 1⟩
  else ⟨mantissa, exponent⟩

theorem carry_value (mantissa : Nat) (exponent : Int) :
    (carry mantissa exponent).value = mantissa * 2 ^ exponent := by
  rw [carry]
  split
  · rename_i full
    rw [full, Binary64.mantissaBound_eq, Binary64.value, zpow_add_one₀ two_ne_zero]
    ring
  · rfl

theorem carry_even {mantissa : Nat} (even : mantissa % 2 = 0) (exponent : Int) :
    (carry mantissa exponent).mantissa % 2 = 0 := by
  rw [carry]
  split
  · exact (by decide : Binary64.normalBound % 2 = 0)
  · exact even

theorem carry_mantissa_lt {mantissa : Nat} (bound : mantissa ≤ Binary64.mantissaBound)
    (exponent : Int) : (carry mantissa exponent).mantissa < Binary64.mantissaBound := by
  rw [carry]
  split
  · exact (by decide : Binary64.normalBound < Binary64.mantissaBound)
  · rename_i fits
    exact lt_of_le_of_ne bound fits

theorem carry_exponent (mantissa : Nat) (exponent : Int) :
    exponent ≤ (carry mantissa exponent).exponent ∧
      (carry mantissa exponent).exponent ≤ exponent + 1 := by
  rw [carry]
  split
  · exact ⟨by simp, le_rfl⟩
  · exact ⟨le_rfl, by simp⟩

section

variable {numerator denominator : Nat}

/-- Rounding is right on the scale, and only the size of the result can stop it there. -/
theorem nearest?_rounds (nonzero : numerator ≠ 0) (positive : (0 : ℚ) < denominator) :
    ∃ exponent rounded, Fits (numerator / denominator) exponent ∧
      Rounds (numerator / denominator) exponent rounded ∧
      nearest? numerator denominator =
        if Binary64.greatestExponent < (carry rounded exponent).exponent then none
        else some (carry rounded exponent) := by
  obtain ⟨bottom, quotient⟩ :=
    descale_spec numerator positive (exponentFor numerator denominator)
  have rounds := roundEven_near
    (descale numerator denominator (exponentFor numerator denominator)).1 bottom
  rw [quotient] at rounds
  refine ⟨_, _, exponentFor_fits nonzero positive, ⟨rounds.1, rounds.2⟩, ?_⟩
  rw [nearest?, if_neg nonzero]
  rfl

theorem nearest?_isNearest {number : Binary64} (positive : (0 : ℚ) < denominator)
    (found : nearest? numerator denominator = some number) :
    IsNearest (numerator / denominator) number := by
  by_cases zero : numerator = 0
  · rw [nearest?, if_pos zero, Option.some.injEq] at found
    rw [zero, ← found, Nat.cast_zero, zero_div]
    exact isNearest_zero
  · obtain ⟨exponent, rounded, fits, rounds, form⟩ := nearest?_rounds zero positive
    rw [form] at found
    split at found
    · cases found
    · rename_i inRange
      cases found
      have least := fits.least_le.trans (carry_exponent rounded exponent).1
      have finite : (carry rounded exponent).Finite :=
        ⟨carry_mantissa_lt (rounds.le_bound fits) exponent, least, not_lt.mp inRange⟩
      exact rounds.isNearest fits finite (carry_value rounded exponent)
        fun even => carry_even even exponent

theorem nearest?_exists (positive : (0 : ℚ) < denominator)
    (inRange : (numerator : ℚ) / denominator < 2 ^ 1023) :
    ∃ number, nearest? numerator denominator = some number := by
  by_cases zero : numerator = 0
  · exact ⟨.zero, by rw [nearest?, if_pos zero]⟩
  · obtain ⟨exponent, rounded, fits, _, form⟩ := nearest?_rounds zero positive
    have bound : (Binary64.normalBound : ℚ) * 2 ^ Binary64.greatestExponent = 2 ^ 1023 := by
      have normal : (Binary64.normalBound : ℚ) = 2 ^ 52 := by norm_num [Binary64.normalBound]
      rw [normal, ← zpow_natCast, ← zpow_natCast, ← zpow_add₀ two_ne_zero]
      rfl
    have small := fits.exponent_lt (by decide) (inRange.trans_eq bound.symm)
    have last := (carry_exponent rounded exponent).2
    exact ⟨_, form.trans (if_neg (by omega))⟩

end

/-- Up to two to the power 53 every whole number is a double. -/
theorem isDouble_of_natAbs_le {value : Int} (small : value.natAbs ≤ Binary64.mantissaBound) :
    IsDouble value := by
  have size : |(value : ℚ)| = value.natAbs := by rw [Nat.cast_natAbs, Int.cast_abs]
  rw [IsDouble, size]
  refine ⟨carry value.natAbs 0, ⟨carry_mantissa_lt small 0, ?_, ?_⟩, ?_⟩
  · exact (by decide : Binary64.leastExponent ≤ 0).trans (carry_exponent _ 0).1
  · exact (carry_exponent _ 0).2.trans (by decide)
  · rw [carry_value, zpow_zero, mul_one]

theorem IsNearest.value_eq_iff {x : ℚ} {number : Binary64} (nearest : IsNearest x number)
    (nonneg : 0 ≤ x) : number.value = x ↔ IsDouble x := by
  rw [IsDouble, abs_of_nonneg nonneg]
  constructor
  · intro same
    exact ⟨number, nearest.finite, same⟩
  · intro double
    obtain ⟨exact, finite, same⟩ := double
    have distance := nearest.least exact finite
    rw [same, sub_self, abs_zero] at distance
    exact sub_eq_zero.mp (abs_nonpos_iff.mp distance)

end WireSchema.Number
