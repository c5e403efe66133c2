import WireSchema.Proofs.Number.Denoted
import WireSchema.Proofs.Number.Shortest
import WireSchema.Proofs.Number.Spelling

namespace WireSchema.Number

/-! Canonical numerals.

A numeral is canonical if it is the one that its own double is printed as, so it has the form of
what is printed.  A whole number of up to fifteen digits is far from its neighbours compared with
the interval of its double, so it is printed digit by digit.
-/

/-- Only a fraction ends in a digit, and the shortest decimal does not end in a zero. -/
theorem shortest_last {number : Binary64} (finite : number.Finite) {tie : TieRule}
    (negative : (number.shortest tie).exponent < 0) : (number.shortest tie).digits % 10 ≠ 0 := by
  by_cases zero : number.mantissa = 0
  · rw [Binary64.shortest, if_pos zero] at negative
    exact absurd negative (by decide)
  · exact (Binary64.shortest_isShortest finite zero tie).last_ne_zero

theorem isNumeral_of_isCanonicalNumeral {text : List Char}
    (canonical : isCanonicalNumeral text = true) : IsNumeral text := by
  unfold isCanonicalNumeral at canonical
  split at canonical
  rename_i sign magnitude signed
  have isSign : IsSign sign := by
    split at signed
    · cases signed
      exact .inr rfl
    · cases signed
      exact .inl rfl
  split at canonical
  · cases canonical
  rename_i decimal _
  dsimp only at canonical
  split at canonical
  · cases canonical
  rename_i number found
  have finite := (nearest?_isNearest decimal.fraction_spec.1 found).finite
  rw [← eq_of_beq canonical]
  exact isNumeral_positional (shortest_last finite) isSign

theorem ofDigitChars_lt {digits : List Char} (isDigit : ∀ c ∈ digits, c.isDigit = true)
    (value : Nat) : Nat.ofDigitChars 10 digits value < (value + 1) * 10 ^ digits.length := by
  induction digits generalizing value with
  | nil => simp
  | cons c digits ih =>
      obtain ⟨first, rest⟩ := List.forall_mem_cons.mp isDigit
      have small := (digitChar_of_isDigit first).1
      calc Nat.ofDigitChars 10 (c :: digits) value
          = Nat.ofDigitChars 10 digits (10 * value + (c.toNat - '0'.toNat)) :=
            Nat.ofDigitChars_cons
        _ < (10 * value + (c.toNat - '0'.toNat) + 1) * 10 ^ digits.length := ih rest _
        _ ≤ ((value + 1) * 10) * 10 ^ digits.length := Nat.mul_le_mul_right _ (by omega)
        _ = (value + 1) * 10 ^ (c :: digits).length := by
            rw [List.length_cons, Nat.pow_succ']
            ring

theorem digitsValue_lt {digits : List Char} (isDigit : ∀ c ∈ digits, c.isDigit = true) :
    digitsValue digits < 10 ^ digits.length := by
  have below := ofDigitChars_lt isDigit 0
  rwa [← digitsValue_eq, Nat.zero_add, Nat.one_mul] at below

/-- A double of so many bits is given to within an eighth. -/
theorem nearest?_small {value : Nat} (positive : 0 < value) (small : value < 10 ^ 15) :
    ∃ number, nearest? value 1 = some number ∧ number.Finite ∧ number.value = value ∧
      number.exponent ≤ -2 := by
  have unit : (0 : ℚ) < (1 : Nat) := by norm_num
  have quotient : (value : ℚ) / (1 : Nat) = value := by rw [Nat.cast_one, div_one]
  obtain ⟨exponent, rounded, fits, _, form⟩ := nearest?_rounds (Nat.ne_of_gt positive) unit
  have below : (value : ℚ) / (1 : Nat) < Binary64.normalBound * 2 ^ (-2 : Int) := by
    have bound : (value : ℚ) < 10 ^ 15 := by exact_mod_cast small
    rw [quotient]
    norm_num [Binary64.normalBound]
    linarith
  have fine := fits.exponent_lt (by decide) below
  have last := (carry_exponent rounded exponent).2
  have found := form.trans (if_neg (by rw [Binary64.greatestExponent]; omega))
  have nearest := nearest?_isNearest unit found
  rw [quotient] at nearest
  have double : IsDouble value := by
    have size : (value : Int).natAbs ≤ Binary64.mantissaBound := by
      rw [Int.natAbs_natCast, Binary64.mantissaBound]
      omega
    exact_mod_cast isDouble_of_natAbs_le size
  exact ⟨_, found, nearest.finite, (nearest.value_eq_iff (Nat.cast_nonneg _)).mpr double, by omega⟩

theorem positional_shortest {number : Binary64} (finite : number.Finite) {value : Nat}
    (positive : 0 < value) (same : number.value = value) (fine : number.exponent ≤ -2)
    (tie : TieRule) : (number.shortest tie).positional = Nat.toDigits 10 value := by
  have nonzero : number.mantissa ≠ 0 := by
    intro zero
    rw [Binary64.value, zero, Nat.cast_zero, zero_mul] at same
    exact absurd same.symm (by exact_mod_cast positive.ne')
  obtain ⟨centre, within⟩ := Binary64.interval_spec nonzero
  have shortest := Binary64.shortest_isShortest finite nonzero tie
  generalize number.shortest tie = decimal at *
  have self : Decimal.value ⟨value, 0⟩ ∈ number.interval.rationals := by
    rw [Decimal.value, zpow_zero, mul_one, ← same, ← centre]
    exact within.centre_mem
  have nonneg : 0 ≤ decimal.exponent := shortest.greatest _ self
  have whole : decimal.value = (decimal.digits * 10 ^ decimal.exponent.toNat : Nat) := by
    rw [Decimal.value, Nat.cast_mul, Nat.cast_pow, ← zpow_natCast, Int.toNat_of_nonneg nonneg]
    rfl
  have radius : (2 : ℚ) ^ number.exponent / 2 < 1 := by
    have power : (2 : ℚ) ^ number.exponent ≤ 2 ^ (-2 : Int) := zpow_le_zpow_right₀ one_le_two fine
    norm_num at power ⊢
    linarith
  have near := (within.near shortest.mem).trans_lt radius
  rw [centre, same, whole] at near
  have equal : decimal.digits * 10 ^ decimal.exponent.toNat = value := by
    have apart : |((decimal.digits * 10 ^ decimal.exponent.toNat : Nat) : Int) - value| < 1 := by
      exact_mod_cast near
    have none := Int.abs_lt_one_iff.mp apart
    omega
  rw [positional_of_nonneg nonneg, equal]

/-- The double of a short whole number is printed as the digits of that number. -/
theorem nearest?_prints {value : Nat} (small : value < 10 ^ 15) (tie : TieRule) :
    ∃ number, nearest? value 1 = some number ∧
      (number.shortest tie).positional = Nat.toDigits 10 value := by
  rcases Nat.eq_zero_or_pos value with rfl | positive
  · exact ⟨.zero, rfl, rfl⟩
  · obtain ⟨number, found, finite, same, fine⟩ := nearest?_small positive small
    exact ⟨number, found, positional_shortest finite positive same fine tie⟩

theorem isCanonicalNumeral_digits_iff {sign digits : List Char} (isSign : IsSign sign)
    (isDigit : ∀ c ∈ digits, c.isDigit = true) (nonempty : digits ≠ [])
    (short : digits.length ≤ 15) :
    isCanonicalNumeral (sign ++ digits) = true ↔ IsWhole digits := by
  have small : digitsValue digits < 10 ^ 15 :=
    (digitsValue_lt isDigit).trans_le (Nat.pow_le_pow_right (by decide) short)
  obtain ⟨number, found, printed⟩ := nearest?_prints small .larger
  have read := readPositional?_of_isDigit nonempty isDigit
  have fraction : Decimal.fraction ⟨digitsValue digits, 0⟩ = (digitsValue digits, 1) := by
    simp [Decimal.fraction]
  have compares : isCanonicalNumeral (sign ++ digits) =
      (sign ++ Nat.toDigits 10 (digitsValue digits) == sign ++ digits) := by
    cases isSign with
    | inl unsigned =>
        have noMinus (rest : List Char) : digits ≠ '-' :: rest := by
          simpa using digits_append_ne_minus nonempty isDigit [] rest
        rw [unsigned, List.nil_append, isCanonicalNumeral]
        · simp [read, fraction, found, printed]
        · exact noMinus
    | inr minus =>
        rw [minus, List.singleton_append]
        simp [isCanonicalNumeral, read, fraction, found, printed]
  rw [compares, beq_iff_eq, List.append_cancel_left_eq]
  constructor
  · intro same
    exact same ▸ isWhole_toDigits _
  · exact IsWhole.toDigits

end WireSchema.Number
