import WireSchema.Number.Positional
import WireSchema.Text.Control
import WireSchema.Text.Hex
import WireSchema.Text.Identifier
import WireSchema.Text.Quoted

namespace WireSchema.TypeScript

/-! Names and string literals of TypeScript. -/

/-- Words that cannot name a type. -/
def reserved : List String :=
  [ "any", "await", "bigint", "boolean", "break", "case", "catch", "class", "const",
    "continue", "debugger", "default", "delete", "do", "else", "enum", "export", "extends",
    "false", "finally", "for", "function", "if", "implements", "import", "in", "instanceof",
    "interface", "let", "never", "new", "null", "number", "object", "package", "private",
    "protected", "public", "return", "static", "string", "super", "switch", "symbol",
    "this", "throw", "true", "try", "typeof", "undefined", "unknown", "var", "void",
    "while", "with", "yield" ]

def isIdentifierName (name : String) : Bool := Text.isIdentifier ['$'] name

def isTypeIdentifier (name : String) : Bool :=
  isIdentifierName name && !reserved.contains name

/-- A name that an enum member cannot have, because the language keeps the numerals it
prints, and the names of its special numbers, for looking members up by value. -/
def isNumericName (name : String) : Bool :=
  ["NaN", "Infinity", "-Infinity"].contains name || Number.isCanonicalNumeral name.toList

/-- Control characters and the two line separators are written by their code point. -/
def escape : Char → List Char :=
  Text.escapeOr fun c =>
    if Text.isControl c || c == '\u2028' || c == '\u2029' then
      '\\' :: 'u' :: Text.hexDigits 4 c.toNat
    else [c]

def stringLiteral (text : String) : String := Text.quote escape text

def propertyName (name : String) : String :=
  if isIdentifierName name then name else stringLiteral name

end WireSchema.TypeScript
