import WireSchema.Number.Shortest

namespace WireSchema.Number

/-! Decimal numerals in positional notation: digits with at most one point, no exponent. -/

def natDigits (value : Nat) : List Char := Nat.toDigits 10 value

/-- The decimal with all its zeros written out and a point only where a fraction follows. -/
def Decimal.positional (decimal : Decimal) : List Char :=
  match decimal.exponent with
  | .ofNat zeros =>
      if decimal.digits = 0 then ['0']
      else natDigits decimal.digits ++ List.replicate zeros '0'
  | .negSucc places =>
      let digits := natDigits decimal.digits
      let padded := List.replicate (places + 2 - digits.length) '0' ++ digits
      let whole := padded.length - (places + 1)
      padded.take whole ++ '.' :: padded.drop whole

def digitsValue (digits : List Char) : Nat :=
  digits.foldl (fun value c => value * 10 + (c.toNat - '0'.toNat)) 0

/-- Reads a numeral: at least one digit, and at most one point before, after or between. -/
def readPositional? (text : List Char) : Option Decimal :=
  let whole := text.takeWhile (· != '.')
  let fraction := (text.dropWhile (· != '.')).drop 1
  let digits := whole ++ fraction
  if digits.isEmpty || !digits.all Char.isDigit then none
  else some ⟨digitsValue digits, -(fraction.length : Int)⟩

/-- Whether `text` is the numeral that its own value is written as, when the value is
rounded to double precision.  Of two equally near numerals the larger is written.  A value
out of range has no numeral. -/
def isCanonicalNumeral (text : List Char) : Bool :=
  let (sign, magnitude) :=
    match text with
    | '-' :: rest => (['-'], rest)
    | _ => ([], text)
  match readPositional? magnitude with
  | none => false
  | some decimal =>
      let (top, bottom) := decimal.fraction
      match nearest? top bottom with
      | none => false
      | some number => sign ++ (number.shortest .larger).positional == text

example : isCanonicalNumeral "-12.5".toList = true ∧ isCanonicalNumeral "0.10".toList = false ∧
    isCanonicalNumeral "007".toList = false ∧ isCanonicalNumeral ".5".toList = false := by
  decide +kernel

example : isCanonicalNumeral "9007199254740993".toList = false ∧
    isCanonicalNumeral "9007199254740992".toList = true := by
  decide +kernel

end WireSchema.Number
