import WireSchema.Json.Number

namespace WireSchema

/-! JSON documents, also those that break off.

A text is kept as far as it can be read.  Where it goes wrong the tree has a `broken` value,
or none, and every array and object around that place is marked as not closed.  So a reader
of the tree meets faults in the order of the text, whatever their kind.

What follows the grammar and still has no value is broken or not closed as well, but the tree
goes on after it.  A reader that passes over it does not notice.
-/

inductive Json where
  | null
  | bool (value : Bool)
  | number (value : JsonNumber)
  | string (text : String)
  | array (items : List Json) (closed : Bool)
  | object (members : List (String × Json)) (closed : Bool)
  | broken

namespace Json

mutual
/-- Whether a value has no broken part. -/
def whole : Json → Bool
  | .null | .bool _ | .number _ | .string _ => true
  | .array items closed => closed && wholeItems items
  | .object members closed => closed && wholeMembers members
  | .broken => false

def wholeItems : List Json → Bool
  | [] => true
  | item :: rest => item.whole && wholeItems rest

def wholeMembers : List (String × Json) → Bool
  | [] => true
  | (_, value) :: rest => value.whole && wholeMembers rest
end

mutual
/-- The tree with everything broken that nests deeper than allowed. -/
def cut : Json → (depth : Nat) → Json
  | .array items closed, depth + 1 => .array (cutItems items depth) closed
  | .object members closed, depth + 1 => .object (cutMembers members depth) closed
  | .array _ _, 0 | .object _ _, 0 | .broken, _ => .broken
  | .null, _ => .null
  | .bool value, _ => .bool value
  | .number value, _ => .number value
  | .string text, _ => .string text

def cutItems : List Json → (depth : Nat) → List Json
  | [], _ => []
  | item :: rest, depth => item.cut depth :: cutItems rest depth

def cutMembers : List (String × Json) → (depth : Nat) → List (String × Json)
  | [], _ => []
  | (name, value) :: rest, depth => (name, value.cut depth) :: cutMembers rest depth
end

def ofMembers (members : List (String × Json)) : Json := .object members true

def ofItems (items : List Json) : Json := .array items true

end Json

end WireSchema
