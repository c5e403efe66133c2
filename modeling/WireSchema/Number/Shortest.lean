import WireSchema.Number.Binary64

namespace WireSchema.Number

/-! The shortest decimal that reads back as a given binary number.

A decimal reads back when it lies in the interval of reals that round to the number; the
ends of the interval belong to it when the mantissa is even.  Among the multiples of a
power of ten only the two neighbours of the number have to be tried.  Powers of ten are
tried from the largest down, so the first hit has the fewest digits.  Of two hits the
nearer one wins, and of two equally near the one that the tie rule names.
-/

inductive TieRule where
  | larger
  | even

/-- Whether `lower + 1` is taken when it is as near as `lower`. -/
def TieRule.takesUpper (tie : TieRule) (lower : Nat) : Bool :=
  match tie with
  | .larger => true
  | .even => lower % 2 == 1

structure Decimal where
  digits : Nat
  exponent : Int
deriving DecidableEq

def Decimal.fraction (decimal : Decimal) : Nat × Nat :=
  match decimal.exponent with
  | .ofNat shift => (decimal.digits * Nat.pow 10 shift, 1)
  | .negSucc shift => (decimal.digits, Nat.pow 10 (shift + 1))

/-- The number and the ends of its rounding interval as numerators over one denominator. -/
structure Interval where
  low : Nat
  value : Nat
  high : Nat
  denominator : Nat
  closed : Bool

/-- The reals that round to `number`.  Below a power of two the neighbour is only half as
far away as above it. -/
def Binary64.interval (number : Binary64) : Interval :=
  let below :=
    if number.mantissa = normalBound ∧ leastExponent < number.exponent then 1 else 2
  let (scale, denominator) :=
    match number.exponent with
    | .ofNat shift => (Nat.pow 2 shift, 4)
    | .negSucc shift => (1, 4 * Nat.pow 2 (shift + 1))
  { low := (4 * number.mantissa - below) * scale
    value := 4 * number.mantissa * scale
    high := (4 * number.mantissa + 2) * scale
    denominator
    closed := number.mantissa % 2 == 0 }

def Interval.holds (interval : Interval) (top bottom : Nat) : Bool :=
  let low := interval.low * bottom
  let high := interval.high * bottom
  let point := top * interval.denominator
  if interval.closed then low ≤ point && point ≤ high else low < point && point < high

/-- The multiple of `10 ^ exponent` inside the interval that is nearest to its number. -/
def Interval.multiple? (interval : Interval) (tie : TieRule) (exponent : Int) : Option Decimal :=
  let (scale, bottom) := Decimal.fraction ⟨1, exponent⟩
  let unit := scale * interval.denominator
  let lower := interval.value * bottom / unit
  let middle := (2 * lower + 1) * unit
  let point := 2 * (interval.value * bottom)
  let lowerFits := interval.holds (lower * scale) bottom
  let upperFits := interval.holds ((lower + 1) * scale) bottom
  let upperWins := middle < point || (middle == point && tie.takesUpper lower)
  if upperFits && (upperWins || !lowerFits) then some ⟨lower + 1, exponent⟩
  else if lowerFits then some ⟨lower, exponent⟩
  else none

/-- The first hit among the powers of ten from `10 ^ exponent` down. -/
def Interval.shortest (interval : Interval) (tie : TieRule) :
    (steps : Nat) → (exponent : Int) → Decimal
  | 0, exponent => ⟨0, exponent⟩
  | steps + 1, exponent =>
      match interval.multiple? tie exponent with
      | some decimal => decimal
      | none => interval.shortest tie steps (exponent - 1)

/-- The shortest decimal that reads back as `number`.  No finite number reaches `10 ^ 309`,
and every one is a multiple of `10 ^ -1074`. -/
def Binary64.shortest (number : Binary64) (tie : TieRule) : Decimal :=
  if number.mantissa = 0 then ⟨0, 0⟩
  else number.interval.shortest tie (309 + 1074 + 1) 309

example : (nearest? 1 10).map (·.shortest .even) = some ⟨1, -1⟩ ∧
    (nearest? 100 1).map (·.shortest .even) = some ⟨1, 2⟩ := by
  decide +kernel

example : Binary64.shortest ⟨1, -1074⟩ .even = ⟨5, -324⟩ ∧
    (nearest? 1 3).map (·.shortest .even) = some ⟨3333333333333333, -16⟩ := by
  decide +kernel

example : Binary64.shortest ⟨4503599627370497, -2⟩ .even = ⟨11258999068426242, -1⟩ ∧
    Binary64.shortest ⟨4503599627370497, -2⟩ .larger = ⟨11258999068426243, -1⟩ := by
  decide +kernel

end WireSchema.Number
