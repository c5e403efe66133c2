import Mathlib.Order.Interval.Set.OrdConnected
import WireSchema.Number.Shortest
import WireSchema.Proofs.Number.Rounding

namespace WireSchema.Number

/-! The shortest decimal in the rounding interval of a double.

The interval is convex and the double lies in it.  So if any multiple of a power of ten lies in
it, then one of the two multiples next to the double does, and no others have to be tried.  Every
double is a multiple of the last power that is tried, and is too small for any before the first.
-/

def Decimal.value (decimal : Decimal) : ℚ := decimal.digits * 10 ^ decimal.exponent

theorem Decimal.fraction_spec (decimal : Decimal) :
    (0 : ℚ) < decimal.fraction.2 ∧ (decimal.fraction.1 : ℚ) / decimal.fraction.2 = decimal.value := by
  obtain ⟨digits, exponent⟩ := decimal
  cases exponent with
  | ofNat shift => simp [fraction, value]
  | negSucc shift => simp [fraction, value, zpow_negSucc, div_eq_mul_inv]

namespace Interval

def centre (interval : Interval) : ℚ := interval.value / interval.denominator

/-- The rationals of the interval, with its ends if it is closed. -/
def rationals (interval : Interval) : Set ℚ :=
  if interval.closed then
    Set.Icc (interval.low / interval.denominator) (interval.high / interval.denominator)
  else Set.Ioo (interval.low / interval.denominator) (interval.high / interval.denominator)

/-- The interval reaches at most `radius` to either side of its number, and not to zero. -/
structure Within (interval : Interval) (radius : ℚ) : Prop where
  denominator_pos : (0 : ℚ) < interval.denominator
  low_pos : (0 : ℚ) < interval.low / interval.denominator
  low_near : interval.centre - radius ≤ interval.low / interval.denominator
  low_lt : interval.low / interval.denominator < interval.centre
  lt_high : interval.centre < interval.high / interval.denominator
  high_near : interval.high / interval.denominator ≤ interval.centre + radius

variable {interval : Interval} {radius : ℚ}

theorem ordConnected_rationals (interval : Interval) : interval.rationals.OrdConnected := by
  rw [rationals]
  split
  · exact Set.ordConnected_Icc
  · exact Set.ordConnected_Ioo

theorem rationals_subset (interval : Interval) : interval.rationals ⊆
    Set.Icc (interval.low / interval.denominator) (interval.high / interval.denominator) := by
  rw [rationals]
  split
  · exact Set.Subset.rfl
  · exact Set.Ioo_subset_Icc_self

theorem Within.centre_mem (within : interval.Within radius) :
    interval.centre ∈ interval.rationals := by
  have inside := And.intro within.low_lt within.lt_high
  rw [rationals]
  split
  · exact Set.Ioo_subset_Icc_self inside
  · exact inside

theorem Within.pos (within : interval.Within radius) {x : ℚ} (member : x ∈ interval.rationals) :
    0 < x :=
  within.low_pos.trans_le (interval.rationals_subset member).1

theorem Within.near (within : interval.Within radius) {x : ℚ} (member : x ∈ interval.rationals) :
    |x - interval.centre| ≤ radius := by
  obtain ⟨low, high⟩ := interval.rationals_subset member
  have lowNear := within.low_near
  have highNear := within.high_near
  rw [abs_le]
  exact ⟨by linarith, by linarith⟩

theorem holds_iff (positive : (0 : ℚ) < interval.denominator) {top bottom : Nat}
    (bottomPositive : (0 : ℚ) < bottom) :
    interval.holds top bottom = true ↔ (top / bottom : ℚ) ∈ interval.rationals := by
  have le_iff (left right below above : Nat) (first : (0 : ℚ) < below) (second : (0 : ℚ) < above) :
      (left / below : ℚ) ≤ right / above ↔ left * above ≤ right * below := by
    rw [div_le_div_iff₀ first second]
    exact_mod_cast Iff.rfl
  have lt_iff (left right below above : Nat) (first : (0 : ℚ) < below) (second : (0 : ℚ) < above) :
      (left / below : ℚ) < right / above ↔ left * above < right * below := by
    rw [div_lt_div_iff₀ first second]
    exact_mod_cast Iff.rfl
  rw [holds, rationals]
  split
  · rw [Set.mem_Icc, le_iff _ _ _ _ positive bottomPositive, le_iff _ _ _ _ bottomPositive positive,
      Bool.and_eq_true, decide_eq_true_eq, decide_eq_true_eq]
  · rw [Set.mem_Ioo, lt_iff _ _ _ _ positive bottomPositive, lt_iff _ _ _ _ bottomPositive positive,
      Bool.and_eq_true, decide_eq_true_eq, decide_eq_true_eq]

/-- What comes of trying the multiples of `10 ^ exponent`. -/
inductive Tried (interval : Interval) (exponent : Int) : Option Decimal → Prop
  | hit {digits : Nat} : Decimal.value ⟨digits, exponent⟩ ∈ interval.rationals →
      Tried interval exponent (some ⟨digits, exponent⟩)
  | miss : (∀ digits, Decimal.value ⟨digits, exponent⟩ ∉ interval.rationals) →
      Tried interval exponent none

/-- A multiple in the interval has a neighbour of the number on its own side of the number. -/
theorem Within.neighbour_mem (within : interval.Within radius) {lower : Nat} {exponent : Int}
    (low : Decimal.value ⟨lower, exponent⟩ ≤ interval.centre)
    (high : interval.centre ≤ Decimal.value ⟨lower + 1, exponent⟩) {digits : Nat}
    (member : Decimal.value ⟨digits, exponent⟩ ∈ interval.rationals) :
    Decimal.value ⟨lower, exponent⟩ ∈ interval.rationals ∨
      Decimal.value ⟨lower + 1, exponent⟩ ∈ interval.rationals := by
  have mono {left right : Nat} (le : left ≤ right) :
      Decimal.value ⟨left, exponent⟩ ≤ Decimal.value ⟨right, exponent⟩ := by
    simp only [Decimal.value]
    gcongr
  have convex := interval.ordConnected_rationals
  rcases Nat.lt_or_ge lower digits with above | below
  · exact .inr (convex.out within.centre_mem member ⟨high, mono above⟩)
  · exact .inl (convex.out member within.centre_mem ⟨mono below, low⟩)

theorem multiple?_tried (within : interval.Within radius) (tie : TieRule) (exponent : Int) :
    interval.Tried exponent (interval.multiple? tie exponent) := by
  obtain ⟨bottomPositive, unit⟩ := Decimal.fraction_spec ⟨1, exponent⟩
  rw [Decimal.value, Nat.cast_one, one_mul] at unit
  rw [multiple?]
  generalize Decimal.fraction ⟨1, exponent⟩ = fraction at bottomPositive unit
  obtain ⟨scale, bottom⟩ := fraction
  dsimp only at bottomPositive unit ⊢
  have fits (digits : Nat) : interval.holds (digits * scale) bottom = true ↔
      Decimal.value ⟨digits, exponent⟩ ∈ interval.rationals := by
    rw [holds_iff within.denominator_pos bottomPositive, Nat.cast_mul, mul_div_assoc, unit,
      Decimal.value]
  have le_iff (digits : Nat) : Decimal.value ⟨digits, exponent⟩ ≤ interval.centre ↔
      digits * (scale * interval.denominator) ≤ interval.value * bottom := by
    rw [Decimal.value, ← unit, centre, ← mul_div_assoc,
      div_le_div_iff₀ bottomPositive within.denominator_pos, mul_assoc]
    exact_mod_cast Iff.rfl
  have unitPositive : 0 < scale * interval.denominator := by
    have scalePositive : (0 : ℚ) < scale := by
      rw [← div_pos_iff_of_pos_right bottomPositive, unit]
      positivity
    exact_mod_cast mul_pos scalePositive within.denominator_pos
  -- The multiples on either side of the number are the only ones tried.
  generalize lowerForm : interval.value * bottom / (scale * interval.denominator) = lower
  have low : Decimal.value ⟨lower, exponent⟩ ≤ interval.centre := by
    rw [le_iff, ← Nat.le_div_iff_mul_le unitPositive, lowerForm]
  have high : interval.centre ≤ Decimal.value ⟨lower + 1, exponent⟩ := by
    refine le_of_not_ge fun below => ?_
    rw [le_iff, ← Nat.le_div_iff_mul_le unitPositive, lowerForm] at below
    omega
  split
  · rename_i upper
    exact .hit ((fits _).mp (Bool.and_eq_true_iff.mp upper).1)
  · rename_i notUpper
    split
    · rename_i lowerFits
      exact .hit ((fits _).mp lowerFits)
    · rename_i notLower
      refine .miss fun digits member => ?_
      obtain lowerMember | upperMember := within.neighbour_mem low high member
      · exact notLower ((fits _).mpr lowerMember)
      · exact notUpper (by simp [(fits _).mpr upperMember, notLower])

/-- The decimal lies in the interval, and no decimal does whose exponent is greater. -/
structure IsShortest (interval : Interval) (decimal : Decimal) : Prop where
  mem : decimal.value ∈ interval.rationals
  greatest : ∀ other : Decimal, other.value ∈ interval.rationals →
    other.exponent ≤ decimal.exponent

theorem shortest_isShortest (within : interval.Within radius) (tie : TieRule) {steps : Nat}
    {exponent : Int}
    (above : ∀ other : Decimal, other.value ∈ interval.rationals → other.exponent ≤ exponent)
    (reached : ∃ other : Decimal, other.value ∈ interval.rationals ∧
      exponent < other.exponent + steps) :
    interval.IsShortest (interval.shortest tie steps exponent) := by
  -- A power that misses lowers the exponent that none in the interval exceeds.
  induction steps generalizing exponent with
  | zero =>
      obtain ⟨other, member, near⟩ := reached
      have upper := above other member
      omega
  | succ steps ih =>
      have tried := multiple?_tried within tie exponent
      rw [shortest]
      generalize interval.multiple? tie exponent = result at tried
      cases tried with
      | hit member => exact ⟨member, above⟩
      | miss misses =>
          have notHere (other : Decimal) (member : other.value ∈ interval.rationals) :
              other.exponent ≠ exponent := by
            intro here
            cases here
            exact misses other.digits member
          refine ih (fun other member => ?_) ?_
          · have upper := above other member
            have apart := notHere other member
            omega
          · obtain ⟨other, member, near⟩ := reached
            exact ⟨other, member, by omega⟩

/-- With a zero at its end the decimal would be one with a greater exponent. -/
theorem IsShortest.last_ne_zero {decimal : Decimal} (shortest : interval.IsShortest decimal) :
    decimal.digits % 10 ≠ 0 := by
  intro zero
  have shift : Decimal.value ⟨decimal.digits / 10, decimal.exponent + 1⟩ = decimal.value := by
    have whole : (decimal.digits : ℚ) = 10 * (decimal.digits / 10 : Nat) := by
      have parts := Nat.div_add_mod decimal.digits 10
      rw [zero, Nat.add_zero] at parts
      exact_mod_cast parts.symm
    rw [Decimal.value, Decimal.value, whole, zpow_add_one₀ (by norm_num)]
    ring
  have greater := shortest.greatest _ (shift ▸ shortest.mem)
  dsimp only at greater
  omega

end Interval

namespace Binary64

variable {number : Binary64}

/-- The ends lie half a unit of the mantissa away, or a quarter of one below a power of two. -/
theorem interval_form (number : Binary64) :
    ∃ below scale denominator : Nat, (below = 1 ∨ below = 2) ∧ (0 : ℚ) < denominator ∧
      (scale / denominator : ℚ) = 2 ^ number.exponent / 4 ∧
      number.interval = ⟨(4 * number.mantissa - below) * scale, 4 * number.mantissa * scale,
        (4 * number.mantissa + 2) * scale, denominator, number.mantissa % 2 == 0⟩ := by
  have ends (full : Prop) [Decidable full] :
      (if full then 1 else 2) = 1 ∨ (if full then 1 else 2) = 2 := by
    split
    · exact .inl rfl
    · exact .inr rfl
  obtain ⟨mantissa, exponent⟩ := number
  cases exponent with
  | ofNat shift => exact ⟨_, _, _, ends _, by norm_num, by simp, rfl⟩
  | negSucc shift =>
      refine ⟨_, _, _, ends _, by simp, ?_, rfl⟩
      simp only [Nat.pow_eq, Nat.cast_mul, Nat.cast_pow, Nat.cast_ofNat, Nat.cast_one, zpow_negSucc]
      ring

theorem interval_spec (nonzero : number.mantissa ≠ 0) :
    number.interval.centre = number.value ∧ number.interval.Within (2 ^ number.exponent / 2) := by
  obtain ⟨below, scale, denominator, ends, positive, unit, form⟩ := number.interval_form
  have power : (0 : ℚ) < 2 ^ number.exponent := by positivity
  have mantissa : (1 : ℚ) ≤ number.mantissa := by
    exact_mod_cast Nat.one_le_iff_ne_zero.mpr nonzero
  have size : (1 : ℚ) ≤ below ∧ (below : ℚ) ≤ 2 := by
    rcases ends with rfl | rfl <;> norm_num
  have above : 2 ^ number.exponent ≤ number.value := le_mul_of_one_le_left power.le mantissa
  have quotient (digits : Nat) :
      ((digits * scale : Nat) / denominator : ℚ) = digits * (2 ^ number.exponent / 4) := by
    rw [Nat.cast_mul, mul_div_assoc, unit]
  have centre : number.interval.centre = number.value := by
    rw [Interval.centre, form, quotient, value]
    push_cast
    ring
  have low : (number.interval.low / number.interval.denominator : ℚ) =
      number.value - below * (2 ^ number.exponent / 4) := by
    rw [form, quotient, value, Nat.cast_sub (by omega)]
    push_cast
    ring
  have high : (number.interval.high / number.interval.denominator : ℚ) =
      number.value + 2 ^ number.exponent / 2 := by
    rw [form, quotient, value]
    push_cast
    ring
  refine ⟨centre, ?_, ?_, ?_, ?_, ?_, ?_⟩
  · rw [form]
    exact positive
  · rw [low]
    nlinarith
  · rw [low, centre]
    nlinarith
  · rw [low, centre]
    nlinarith
  · rw [high, centre]
    linarith
  · rw [high, centre]

theorem lt_of_finite (finite : number.Finite) :
    number.value + 2 ^ number.exponent / 2 < 10 ^ (309 : Int) := by
  have mantissa : (number.mantissa : ℚ) + 1 / 2 ≤ 2 ^ (54 : Int) := by
    have bound : (number.mantissa : ℚ) ≤ mantissaBound := by exact_mod_cast finite.mantissa_lt.le
    have small : (mantissaBound : ℚ) + 1 / 2 ≤ 2 ^ (54 : Int) := by norm_num [mantissaBound]
    linarith
  have power : (2 : ℚ) ^ number.exponent ≤ 2 ^ greatestExponent :=
    zpow_le_zpow_right₀ one_le_two finite.le_greatest
  have whole : 2 ^ 1025 < 10 ^ 309 := by decide +kernel
  calc number.value + 2 ^ number.exponent / 2
      = (number.mantissa + 1 / 2) * 2 ^ number.exponent := by rw [value]; ring
    _ ≤ 2 ^ (54 : Int) * 2 ^ greatestExponent := by gcongr
    _ = 2 ^ (1025 : Int) := by rw [← zpow_add₀ two_ne_zero]; rfl
    _ < 10 ^ (309 : Int) := by exact_mod_cast whole

theorem exponent_lt_of_near (finite : number.Finite) {decimal : Decimal}
    (positive : 0 < decimal.value)
    (near : decimal.value ≤ number.value + 2 ^ number.exponent / 2) : decimal.exponent < 309 := by
  have nonzero : decimal.digits ≠ 0 := by
    intro zero
    simp [Decimal.value, zero] at positive
  have digits : (1 : ℚ) ≤ decimal.digits := by exact_mod_cast Nat.one_le_iff_ne_zero.mpr nonzero
  have power : (10 : ℚ) ^ decimal.exponent < 10 ^ (309 : Int) :=
    calc (10 : ℚ) ^ decimal.exponent ≤ decimal.digits * 10 ^ decimal.exponent :=
          le_mul_of_one_le_left (by positivity) digits
      _ = decimal.value := rfl
      _ < 10 ^ (309 : Int) := near.trans_lt (lt_of_finite finite)
  exact (zpow_lt_zpow_iff_right₀ (by norm_num)).mp power

/-- Two divides ten, so a multiple of a power of two is one of the same power of ten. -/
theorem exists_decimal (finite : number.Finite) :
    ∃ digits, Decimal.value ⟨digits, leastExponent⟩ = number.value := by
  refine ⟨number.mantissa * 2 ^ (number.exponent - leastExponent).toNat * 5 ^ 1074, ?_⟩
  have least := finite.least_le
  have twos : (2 : ℚ) ^ (number.exponent - leastExponent).toNat * 2 ^ leastExponent =
      2 ^ number.exponent := by
    rw [← zpow_natCast, ← zpow_add₀ two_ne_zero]
    congr 1
    omega
  have fives : (5 : ℚ) ^ 1074 * 5 ^ leastExponent = 1 := by
    rw [← zpow_natCast, ← zpow_add₀ (by norm_num)]
    rfl
  have tens : (10 : ℚ) ^ leastExponent = 2 ^ leastExponent * 5 ^ leastExponent := by
    rw [← mul_zpow]
    norm_num
  rw [Decimal.value, value, tens, ← twos]
  simp only [Nat.cast_mul, Nat.cast_pow, Nat.cast_ofNat]
  rw [mul_comm ((2 : ℚ) ^ leastExponent), mul_assoc _ ((5 : ℚ) ^ 1074),
    ← mul_assoc ((5 : ℚ) ^ 1074), fives, one_mul, mul_assoc]

/-- The shortest decimal lies in the interval, and none with a greater exponent does. -/
theorem shortest_isShortest (finite : number.Finite) (nonzero : number.mantissa ≠ 0)
    (tie : TieRule) : number.interval.IsShortest (number.shortest tie) := by
  obtain ⟨centre, within⟩ := interval_spec nonzero
  rw [shortest, if_neg nonzero]
  refine Interval.shortest_isShortest within tie (fun other member => ?_) ?_
  · have near := (abs_le.mp (within.near member)).2
    rw [centre] at near
    exact (exponent_lt_of_near finite (within.pos member) (by linarith)).le
  · obtain ⟨digits, same⟩ := exists_decimal finite
    refine ⟨_, same ▸ centre ▸ within.centre_mem, ?_⟩
    dsimp only [leastExponent]
    omega

end Binary64

end WireSchema.Number
