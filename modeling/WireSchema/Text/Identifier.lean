import WireSchema.Text.Letter
import WireSchema.Text.Uppercase

namespace WireSchema.Text

/-! Identifiers: a letter or underscore, then letters, ASCII digits and underscores. -/

/-- Whether `c` may open an identifier.  A language may allow `extra` characters. -/
def opensIdentifier (extra : List Char) (c : Char) : Bool :=
  isLetter c || c == '_' || extra.contains c

def continuesIdentifier (extra : List Char) (c : Char) : Bool :=
  opensIdentifier extra c || c.isDigit

def spellsIdentifier (extra : List Char) : List Char → Bool
  | [] => false
  | first :: rest => opensIdentifier extra first && rest.all (continuesIdentifier extra)

def isIdentifier (extra : List Char) (name : String) : Bool :=
  spellsIdentifier extra name.toList

def capitalizeChars : List Char → List Char
  | [] => []
  | first :: rest => upper first ++ rest

def capitalize (name : String) : String :=
  String.ofList (capitalizeChars name.toList)

@[simp] theorem toList_capitalize (name : String) :
    (capitalize name).toList = capitalizeChars name.toList := by
  simp [capitalize]

end WireSchema.Text
