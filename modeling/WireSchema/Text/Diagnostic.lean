import WireSchema.Text.Quoted
import WireSchema.Text.Unprintable

namespace WireSchema.Text

/-! Text as a diagnostic shows it: on one line, and with no invisible character. -/

/-- How a diagnostic writes `c` between two marks `delimiter`.  An unprintable character
is written by its code point, in as few digits as it needs. -/
def diagnosticEscape (delimiter : Char) (c : Char) : List Char :=
  if c = '\x00' then ['\\', '0']
  else if c = '\t' then ['\\', 't']
  else if c = '\r' then ['\\', 'r']
  else if c = '\n' then ['\\', 'n']
  else if c = '\\' || c = delimiter then ['\\', c]
  else if isUnprintable c then
    ['\\', 'u', '\x7b'] ++ Nat.toDigits 16 c.toNat ++ ['\x7d']
  else [c]

def diagnosticText (text : String) : String :=
  quote (diagnosticEscape '"') text

def diagnosticChar (c : Char) : String :=
  String.ofList ('\'' :: (diagnosticEscape '\'' c ++ ['\'']))

end WireSchema.Text
