import WireSchema.Number.Positional

namespace WireSchema.Number

/-! Compact numerals of doubles: positional as long as that is short, else with an exponent. -/

def Decimal.scientific (decimal : Decimal) : List Char :=
  let digits := natDigits decimal.digits
  let exponent := decimal.exponent + (digits.length - 1 : Nat)
  let fraction := digits.drop 1
  digits.take 1 ++ (if fraction.isEmpty then [] else '.' :: fraction) ++
    'e' :: (if exponent < 0 then '-' else '+') :: natDigits exponent.natAbs

/-- A numeral that shows by a point or an exponent that it stands for a double.  Positional
notation serves from `10 ^ -5` up to `10 ^ 16`. -/
def Decimal.compact (decimal : Decimal) : List Char :=
  let point := (natDigits decimal.digits).length + decimal.exponent
  if decimal.digits = 0 then ['0', '.', '0']
  else if -5 < point ∧ point ≤ 16 then
    decimal.positional ++ if decimal.exponent < 0 then [] else ['.', '0']
  else decimal.scientific

example : Decimal.compact ⟨15, -1⟩ = ['1', '.', '5'] ∧
    Decimal.compact ⟨2, 1⟩ = ['2', '0', '.', '0'] ∧
    Decimal.compact ⟨1, 25⟩ = ['1', 'e', '+', '2', '5'] := by
  decide +kernel

end WireSchema.Number
