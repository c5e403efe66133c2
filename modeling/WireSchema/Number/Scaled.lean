import WireSchema.Number.Shortest

namespace WireSchema.Number

/-! Decimals turned into doubles by arithmetic on doubles.

The digits become a double first, which is then multiplied or divided by a power of ten
that is itself a double.  Every step rounds, so the result may be a few units off the
double nearest to the decimal, and may go out of range where that one does not.
-/

def Binary64.fraction (number : Binary64) : Nat × Nat :=
  match number.exponent with
  | .ofNat shift => (number.mantissa * Nat.pow 2 shift, 1)
  | .negSucc shift => (number.mantissa, Nat.pow 2 (shift + 1))

def Binary64.times? (left right : Binary64) : Option Binary64 :=
  let (leftTop, leftBottom) := left.fraction
  let (rightTop, rightBottom) := right.fraction
  nearest? (leftTop * rightTop) (leftBottom * rightBottom)

def Binary64.over? (left right : Binary64) : Option Binary64 :=
  let (leftTop, leftBottom) := left.fraction
  let (rightTop, rightBottom) := right.fraction
  nearest? (leftTop * rightBottom) (leftBottom * rightTop)

def powerOfTen? (places : Nat) : Option Binary64 := nearest? (Nat.pow 10 places) 1

/-- The number times `10 ^ places`.  There is no double of a power beyond `10 ^ 308`. -/
def Binary64.grow? (number : Binary64) (places : Nat) : Option Binary64 :=
  if number.mantissa = 0 then some number
  else if 308 < places then none
  else do
    let power ← powerOfTen? places
    number.times? power

/-- The number divided by `10 ^ places`, by at most `10 ^ 308` at a time.  A number that has
become zero stays so. -/
def Binary64.shrink? (number : Binary64) (places : Nat) : Option Binary64 :=
  if places ≤ 308 then do
    let power ← powerOfTen? places
    number.over? power
  else if number.mantissa = 0 then some number
  else do
    let power ← powerOfTen? 308
    let smaller ← number.over? power
    smaller.shrink? (places - 308)
termination_by places

/-- The digits of a decimal scaled by its exponent, unless they grow out of range. -/
def Decimal.scaled? (decimal : Decimal) : Option Binary64 := do
  let number ← nearest? decimal.digits 1
  match decimal.exponent with
  | .ofNat places => number.grow? places
  | .negSucc places => number.shrink? (places + 1)

example : Decimal.scaled? ⟨17976931348623158, 292⟩ = none ∧
    Decimal.scaled? ⟨17976931348623157, 292⟩ = some ⟨2 ^ 53 - 1, 971⟩ := by
  decide +kernel

end WireSchema.Number
