namespace WireSchema.Number

/-! Binary floating-point numbers of double precision, exactly and without machine floats.

A finite number that is not negative is `mantissa * 2 ^ exponent`.  In normal form the
mantissa has 53 bits, except that a number too small for that keeps the least exponent.
Rounding works on quotients of natural numbers, so nothing is lost before the one
rounding step.
-/

/-- The number `mantissa * 2 ^ exponent`. -/
structure Binary64 where
  mantissa : Nat
  exponent : Int
deriving DecidableEq

namespace Binary64

def mantissaBound : Nat := 0x20000000000000

def normalBound : Nat := 0x10000000000000

def leastExponent : Int := -1074

def greatestExponent : Int := 971

def zero : Binary64 := ⟨0, leastExponent⟩

end Binary64

/-- The quotient `numerator / (denominator * 2 ^ exponent)` as a fraction. -/
def descale (numerator denominator : Nat) (exponent : Int) : Nat × Nat :=
  match exponent with
  | .ofNat shift => (numerator, denominator * Nat.pow 2 shift)
  | .negSucc shift => (numerator * Nat.pow 2 (shift + 1), denominator)

/-- The nearest natural number to a fraction, and of two equally near the even one. -/
def roundEven (numerator denominator : Nat) : Nat :=
  let whole := numerator / denominator
  let twice := 2 * (numerator % denominator)
  if twice < denominator then whole
  else if denominator < twice then whole + 1
  else whole + whole % 2

/-- The exponent at which the quotient has a mantissa of 53 bits, or the least exponent. -/
def exponentFor (numerator denominator : Nat) : Int :=
  let guess : Int := (numerator.log2 : Int) - (denominator.log2 : Int) - 52
  let (top, bottom) := descale numerator denominator guess
  let exact := if top / bottom < Binary64.normalBound then guess - 1 else guess
  max exact Binary64.leastExponent

/-- The number nearest to a quotient, ties to the even mantissa.  There is none when the
quotient rounds to a number beyond the largest finite one. -/
def nearest? (numerator denominator : Nat) : Option Binary64 :=
  if numerator = 0 then some .zero
  else
    let exponent := exponentFor numerator denominator
    let (top, bottom) := descale numerator denominator exponent
    let mantissa := roundEven top bottom
    let rounded : Binary64 :=
      if mantissa = Binary64.mantissaBound then ⟨Binary64.normalBound, exponent + 1⟩
      else ⟨mantissa, exponent⟩
    if Binary64.greatestExponent < rounded.exponent then none else some rounded

example : nearest? 1 1 = some ⟨2 ^ 52, -52⟩ ∧ nearest? 1 10 = some ⟨7205759403792794, -56⟩ := by
  decide +kernel

example : nearest? (2 ^ 1024 - 2 ^ 970) 1 = none ∧
    nearest? (2 ^ 1024 - 2 ^ 970 - 1) 1 = some ⟨2 ^ 53 - 1, 971⟩ := by
  decide +kernel

end WireSchema.Number
