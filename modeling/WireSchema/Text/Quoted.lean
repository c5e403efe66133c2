namespace WireSchema.Text

/-! Text between double quotes.

A quoted form is given by an escape function, which says how one character is written
between the quotes.  The forms of this library differ in that function alone, and most
of them share the short escapes below.
-/

/-- `text` between double quotes, each character written by `escape`. -/
def quoteChars (escape : Char → List Char) (text : List Char) : List Char :=
  '"' :: (text.flatMap escape ++ ['"'])

def quote (escape : Char → List Char) (text : String) : String :=
  String.ofList (quoteChars escape text.toList)

def shortEscape? : Char → Option Char
  | '"' => some '"'
  | '\\' => some '\\'
  | '\n' => some 'n'
  | '\r' => some 'r'
  | '\t' => some 't'
  | _ => none

/-- Writes a character by its short escape, or through `other` when it has none. -/
def escapeOr (other : Char → List Char) (c : Char) : List Char :=
  match shortEscape? c with
  | some letter => ['\\', letter]
  | none => other c

@[simp] theorem toList_quote (escape : Char → List Char) (text : String) :
    (quote escape text).toList = quoteChars escape text.toList := by
  simp [quote]

end WireSchema.Text
