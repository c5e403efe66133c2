import WireSchema.Json.Basic
import WireSchema.Text.Hex
import WireSchema.Text.Quoted

namespace WireSchema

/-! Compact JSON text. -/

/-- Control characters of ASCII are escaped, some of them by a letter. -/
def Json.escape : Char → List Char :=
  Text.escapeOr fun c =>
    if c = '\x08' then ['\\', 'b']
    else if c = '\x0c' then ['\\', 'f']
    else if c.toNat < 0x20 then '\\' :: 'u' :: Text.hexDigits 4 c.toNat
    else [c]

namespace Json

mutual
/-- The text of a value.  One that broke off is written up to where it broke. -/
def write : Json → List Char
  | .null => ['n', 'u', 'l', 'l']
  | .bool true => ['t', 'r', 'u', 'e']
  | .bool false => ['f', 'a', 'l', 's', 'e']
  | .number value => value.text
  | .string text => Text.quoteChars escape text.toList
  | .array items closed => '[' :: (writeItems items ++ if closed then [']'] else [])
  | .object members closed => '{' :: (writeMembers members ++ if closed then ['}'] else [])
  | .broken => []

def writeItems : List Json → List Char
  | [] => []
  | [item] => item.write
  | item :: rest => item.write ++ ',' :: writeItems rest

def writeMembers : List (String × Json) → List Char
  | [] => []
  | [(name, value)] => Text.quoteChars escape name.toList ++ ':' :: value.write
  | (name, value) :: rest =>
      Text.quoteChars escape name.toList ++ ':' :: (value.write ++ ',' :: writeMembers rest)
end

def text (json : Json) : String := String.ofList json.write

end Json

end WireSchema
