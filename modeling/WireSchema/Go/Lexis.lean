import WireSchema.Text.Hex
import WireSchema.Text.Identifier
import WireSchema.Text.Quoted

namespace WireSchema.Go

/-! Names and string literals of Go. -/

def keywords : List String :=
  [ "break", "case", "chan", "const", "continue", "default", "defer", "else",
    "fallthrough", "for", "func", "go", "goto", "if", "import", "interface", "map",
    "package", "range", "return", "select", "struct", "switch", "type", "var" ]

/-- Names that Go declares itself, and that a package can hide by declaring them again. -/
def predeclared : List String :=
  [ "any", "append", "bool", "byte", "cap", "clear", "close", "comparable", "complex",
    "complex64", "complex128", "copy", "delete", "error", "false", "float32", "float64",
    "imag", "int", "int8", "int16", "int32", "int64", "iota", "len", "make", "max", "min",
    "new", "nil", "panic", "print", "println", "real", "recover", "rune", "string", "true",
    "uint", "uint8", "uint16", "uint32", "uint64", "uintptr" ]

def isIdentifier (name : String) : Bool :=
  name != "_" && Text.isIdentifier [] name && !keywords.contains name

/-- A name that a package can declare without hiding a predeclared one.  A package cannot
declare a type or constant called `init`. -/
def isPackageIdentifier (name : String) : Bool :=
  isIdentifier name && name != "init" && !predeclared.contains name

/-- Control characters of ASCII without a short escape are written as bytes. -/
def escape : Char → List Char :=
  Text.escapeOr fun c =>
    if c.toNat < 0x20 || c.toNat == 0x7F then
      '\\' :: 'x' :: Text.hexDigits 2 c.toNat
    else [c]

def stringLiteral (text : String) : String := Text.quote escape text

end WireSchema.Go
