import WireSchema.Json.Basic
import WireSchema.Text.Hex

namespace WireSchema.Json

/-! Reading JSON text.

The grammar is the strict one: no comments, no trailing commas, no raw control characters
in strings.  Text that keeps to it is read to its end.  Within the tree it leaves broken what
stands for nothing: a number beyond the doubles, a string with half of a surrogate pair, and
what nests deeper than `nestingLimit`.
-/

/-- What a reader leaves of the text, or none when the text went wrong. -/
abbrev Rest := Option (List Char)

def nestingLimit : Nat := 127

def isSpace (c : Char) : Bool :=
  c == ' ' || c == '\t' || c == '\n' || c == '\r'

def skipSpace (text : List Char) : List Char := text.dropWhile isSpace

def hexUnit? (a b c d : Char) : Option Nat := Text.hexValue? [a, b, c, d]

def unescape? : Char → Option Char
  | '"' => some '"'
  | '\\' => some '\\'
  | '/' => some '/'
  | 'b' => some '\x08'
  | 'f' => some '\x0c'
  | 'n' => some '\n'
  | 'r' => some '\r'
  | 't' => some '\t'
  | _ => none

/-- A piece of a string: a character, or a 16-bit unit given by its code. -/
inductive Unit16 where
  | char (c : Char)
  | code (value : Nat)

def readUnits : List Char → Option (List Unit16 × List Char)
  | [] => none
  | '"' :: rest => some ([], rest)
  | '\\' :: 'u' :: a :: b :: c :: d :: rest => do
      let value ← hexUnit? a b c d
      let (units, rest) ← readUnits rest
      some (.code value :: units, rest)
  | '\\' :: letter :: rest => do
      let c ← unescape? letter
      let (units, rest) ← readUnits rest
      some (.char c :: units, rest)
  | c :: rest =>
      if c.toNat < 0x20 || c == '\\' then none
      else do
        let (units, rest) ← readUnits rest
        some (.char c :: units, rest)

def isHighSurrogate (value : Nat) : Bool := 0xD800 ≤ value && value < 0xDC00

def isLowSurrogate (value : Nat) : Bool := 0xDC00 ≤ value && value < 0xE000

/-- The characters that the pieces make up.  A surrogate counts only in a pair. -/
def joinUnits : List Unit16 → Option (List Char)
  | [] => some []
  | .char c :: rest => (joinUnits rest).map (c :: ·)
  | .code high :: .code low :: rest =>
      if isHighSurrogate high then
        if isLowSurrogate low then
          let value := 0x10000 + (high - 0xD800) * 0x400 + (low - 0xDC00)
          (joinUnits rest).map (Char.ofNat value :: ·)
        else none
      else if isLowSurrogate high then none
      else (joinUnits (.code low :: rest)).map (Char.ofNat high :: ·)
  | .code value :: rest =>
      if isHighSurrogate value || isLowSurrogate value then none
      else (joinUnits rest).map (Char.ofNat value :: ·)

/-- The string that the pieces make up, unless half of a surrogate pair is among them. -/
def stringOf? (units : List Unit16) : Option String := (joinUnits units).map String.ofList

def readString (text : List Char) : Option (Option String × List Char) := do
  let (units, rest) ← readUnits text
  some (stringOf? units, rest)

/-- Items up to the closing bracket, each read by `one`.  An item takes at least one
character, so `fuel` need not exceed the length of the text. -/
def readItems (one : List Char → Json × Rest) : (fuel : Nat) → List Char → List Json × Rest
  | 0, _ => ([], none)
  | fuel + 1, text =>
      match one text with
      | (item, none) => ([item], none)
      | (item, some rest) =>
          match skipSpace rest with
          | ']' :: rest => ([item], some rest)
          | ',' :: rest =>
              let (items, rest) := readItems one fuel rest
              (item :: items, rest)
          | _ => ([item], none)

def readMember (one : List Char → Json × Rest) (text : List Char) :
    Option ((Option String × Json) × Rest) :=
  match skipSpace text with
  | '"' :: rest => do
      let (name, rest) ← readString rest
      match skipSpace rest with
      | ':' :: rest =>
          let (value, rest) := one rest
          some ((name, value), rest)
      | _ => some ((name, .broken), none)
  | _ => none

/-- Members up to the closing brace, each value read by `one`. -/
def readMembers (one : List Char → Json × Rest) :
    (fuel : Nat) → List Char → List (Option String × Json) × Rest
  | 0, _ => ([], none)
  | fuel + 1, text =>
      match readMember one text with
      | none => ([], none)
      | some (member, none) => ([member], none)
      | some (member, some rest) =>
          match skipSpace rest with
          | '}' :: rest => ([member], some rest)
          | ',' :: rest =>
              let (members, rest) := readMembers one fuel rest
              (member :: members, rest)
          | _ => ([member], none)

def named : List (Option String × Json) → List (String × Json)
  | (some name, value) :: rest => (name, value) :: named rest
  | _ => []

/-- An object has its members up to a name that stands for nothing, and is not closed then. -/
def objectOf (members : List (Option String × Json)) (closed : Bool) : Json :=
  .object (named members) (closed && members.all (·.1.isSome))

def readArray (one : List Char → Json × Rest) (fuel : Nat) (text : List Char) : Json × Rest :=
  match skipSpace text with
  | ']' :: rest => (.array [] true, some rest)
  | text =>
      let (items, rest) := readItems one fuel text
      (.array items rest.isSome, rest)

def readObject (one : List Char → Json × Rest) (fuel : Nat) (text : List Char) : Json × Rest :=
  match skipSpace text with
  | '}' :: rest => (.object [] true, some rest)
  | text =>
      let (members, rest) := readMembers one fuel text
      (objectOf members rest.isSome, rest)

/-- One value, with `one` to read the values inside it. -/
def readWith (one : List Char → Json × Rest) (fuel : Nat) (text : List Char) : Json × Rest :=
  match skipSpace text with
  | 'n' :: 'u' :: 'l' :: 'l' :: rest => (.null, some rest)
  | 't' :: 'r' :: 'u' :: 'e' :: rest => (.bool true, some rest)
  | 'f' :: 'a' :: 'l' :: 's' :: 'e' :: rest => (.bool false, some rest)
  | '"' :: rest =>
      match readString rest with
      | some (text, rest) => ((text.map .string).getD .broken, some rest)
      | none => (.broken, none)
  | '[' :: rest => readArray one fuel rest
  | '{' :: rest => readObject one fuel rest
  | text =>
      match readNumber text with
      | some (value, rest) => ((value.map .number).getD .broken, some rest)
      | none => (.broken, none)

/-- One value.  What is inside of it is shorter, so `fuel` need not exceed the length of the
text. -/
def readValue : (fuel : Nat) → List Char → Json × Rest
  | 0 => fun _ => (.broken, none)
  | fuel + 1 => readWith (readValue fuel) fuel

structure Document where
  root : Json
  complete : Bool

/-- Reads a text.  The document is complete when nothing but space follows its root. -/
def readDocument (text : List Char) : Document :=
  let (root, rest) := readValue text.length text
  { root := root.cut nestingLimit
    complete := rest.any fun rest => (skipSpace rest).isEmpty }

end WireSchema.Json
