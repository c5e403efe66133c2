import WireSchema.Number.Scaled
import WireSchema.Number.Scientific

namespace WireSchema

/-! JSON numbers, their text and how they are read.

Whole numbers of 64 bits are kept exactly.  Of any other number the digits are gathered
into 64 bits, as many as fit, and scaled to a double.
-/

/-- A JSON number.  Whole numbers that fit 64 bits, with or without a sign, are integers;
all others, and minus zero, are doubles. -/
inductive JsonNumber where
  | integer (value : Int)
  | double (negative : Bool) (magnitude : Number.Binary64)
deriving DecidableEq

/-- A double is written with the fewest digits, ties to the even one. -/
def JsonNumber.text : JsonNumber → List Char
  | .integer value => (toString value).toList
  | .double negative magnitude =>
      (if negative then ['-'] else []) ++ (magnitude.shortest .even).compact

namespace Json

def takeDigits (text : List Char) : List Char × List Char :=
  (text.takeWhile Char.isDigit, text.dropWhile Char.isDigit)

/-- The digits before the point: a single zero, or digits that do not start with one. -/
def readWhole (text : List Char) : Option (List Char × List Char) :=
  match takeDigits text with
  | ([], _) => none
  | ('0' :: _ :: _, _) => none
  | result => some result

def readFraction : List Char → Option (Option (List Char) × List Char)
  | '.' :: text =>
      match takeDigits text with
      | ([], _) => none
      | (digits, rest) => some (some digits, rest)
  | text => some (none, text)

def readExponentDigits (negative : Bool) (text : List Char) : Option (Option Int × List Char) :=
  match takeDigits text with
  | ([], _) => none
  | (digits, rest) =>
      let value : Int := Number.digitsValue digits
      some (some (if negative then -value else value), rest)

def readExponent : List Char → Option (Option Int × List Char)
  | 'e' :: '-' :: text | 'E' :: '-' :: text => readExponentDigits true text
  | 'e' :: '+' :: text | 'E' :: '+' :: text => readExponentDigits false text
  | 'e' :: text | 'E' :: text => readExponentDigits false text
  | text => some (none, text)

def leastInteger : Int := -9223372036854775808

def greatestInteger : Int := 18446744073709551615

/-- Appends digits to `value` as long as it fits 64 bits.  Gives back the digits from the
first on that does not fit. -/
def appendDigits (value : Nat) : List Char → Nat × List Char
  | [] => (value, [])
  | c :: rest =>
      let longer := value * 10 + (c.toNat - '0'.toNat)
      if greatestInteger < longer then (value, c :: rest) else appendDigits longer rest

/-- The leading digits that fit 64 bits, with the place of the last of them.  Digits left
out before the point count as places, those left out after it do not. -/
def gather (whole fraction : List Char) : Number.Decimal :=
  let (value, leftOut) := appendDigits 0 whole
  let (value, unread) := appendDigits value fraction
  ⟨value, leftOut.length - ((fraction.length : Int) - unread.length)⟩

def makeNumber (negative : Bool) (whole : List Char) (fraction : Option (List Char))
    (exponent : Option Int) : Option JsonNumber :=
  let value : Int :=
    if negative then -(Number.digitsValue whole : Int) else Number.digitsValue whole
  let isInteger :=
    fraction.isNone && exponent.isNone && !(negative && value == 0) &&
      leastInteger ≤ value && value ≤ greatestInteger
  if isInteger then some (.integer value)
  else do
    let gathered := gather whole (fraction.getD [])
    let shifted := { gathered with exponent := gathered.exponent + exponent.getD 0 }
    let magnitude ← shifted.scaled?
    some (.double negative magnitude)

/-- Reads a numeral.  The number is missing if it grows beyond the doubles. -/
def readNumber (text : List Char) : Option (Option JsonNumber × List Char) := do
  let (negative, text) :=
    match text with
    | '-' :: rest => (true, rest)
    | _ => (false, text)
  let (whole, text) ← readWhole text
  let (fraction, text) ← readFraction text
  let (exponent, text) ← readExponent text
  some (makeNumber negative whole fraction exponent, text)

/-- Of twenty-one digits before the point the first twenty are kept, and of a fraction
whatever still fits. -/
example : gather "123456789012345678901".toList "5".toList = ⟨12345678901234567890, 1⟩ ∧
    gather "99999999999999999999".toList "5".toList = ⟨9999999999999999999, 1⟩ ∧
    gather "1".toList "25".toList = ⟨125, -2⟩ := by
  decide +kernel

end Json

end WireSchema
