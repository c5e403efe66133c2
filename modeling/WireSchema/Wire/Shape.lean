import WireSchema.Wire.Fault

namespace WireSchema.Wire

/-! Decoding by shape: strings, sequences, variants and structures.

A value is decoded from its tree in the order of the text, and the first fault met is the
one reported.  Streamed decoding meets a broken place only when it gets there, and none in
what it passes over.  Buffered decoding starts after the whole value has been read, and allows
a little more.
-/

abbrev Decoded (α : Type) := Except DecodeFault α

/-- Whether a value is decoded while its text is read, or afterwards. -/
inductive Mode where
  | streamed
  | buffered
deriving DecidableEq

def misshapen {α : Type} (fault : ShapeFault) : Decoded α := .error (.shape fault)

def mismatch {α : Type} (json : Json) (expected : Expected) : Decoded α :=
  match json with
  | .null => misshapen (.invalidType .null expected)
  | .bool value => misshapen (.invalidType (.boolean value) expected)
  | .number value => misshapen (.invalidType (.number value) expected)
  | .string text => misshapen (.invalidType (.string text) expected)
  | .array _ _ => misshapen (.invalidType .sequence expected)
  | .object _ _ => misshapen (.invalidType .map expected)
  | .broken => .error .malformed

def decodeString : Json → Decoded String
  | .string text => .ok text
  | json => mismatch json .string

/-- A text that may be null or left out. -/
def decodeOptionalString : Json → Decoded (Option String)
  | .null => .ok none
  | json => do
      let text ← decodeString json
      .ok (some text)

/-- Passes a result on if the array or object it came from is closed. -/
def requireClosed {α : Type} (closed : Bool) (value : α) : Decoded α :=
  if closed then .ok value else .error .malformed

def decodeItems {α : Type} (decode : Json → Decoded α) : List Json → Decoded (List α)
  | [] => .ok []
  | item :: rest => do
      let value ← decode item
      let values ← decodeItems decode rest
      .ok (value :: values)

def decodeSequence {α : Type} (decode : Json → Decoded α) : Json → Decoded (List α)
  | .array items closed => do
      let values ← decodeItems decode items
      requireClosed closed values
  | json => mismatch json .sequence

def pickVariant {α : Type} (variants : List (String × α)) (name : String) : Decoded α :=
  match variants.lookup name with
  | some variant => .ok variant
  | none => misshapen (.unknownVariant name (variants.map Prod.fst))

def noVariant {α : Type} (mode : Mode) (json : Json) : Decoded α :=
  match mode with
  | .streamed => .error .malformed
  | .buffered => mismatch json .stringOrMap

def noEntry {α : Type} : Mode → Decoded α
  | .streamed => .error .malformed
  | .buffered => misshapen .notOneEntry

def decodeUnit : Mode → Json → Decoded Unit
  | _, .null => .ok ()
  | .buffered, .object [] _ => .ok ()
  | _, json => mismatch json .unit

/-- A variant that carries nothing: its name, or an object with the name as its only key. -/
def decodeVariant {α : Type} (variants : List (String × α)) (mode : Mode) : Json → Decoded α
  | .string name => pickVariant variants name
  | .object [] _ => noEntry mode
  | .object ((name, content) :: others) closed => do
      if mode = .buffered ∧ !others.isEmpty then misshapen .notOneEntry
      else
        let variant ← pickVariant variants name
        decodeUnit mode content
        requireClosed (closed && others.isEmpty) variant
  | json => noVariant mode json

/-- A named part of a structure, and how a draft of the structure takes it up. -/
structure Slot (δ : Type) where
  name : String
  isFilled : δ → Bool
  fill : δ → Json → Decoded δ

/-- A structure that is read part by part.  Its draft becomes a value once all parts have
been read; `finish` takes a report for a part that is missing, given its position and name. -/
structure Shape (δ α : Type) where
  name : String
  blank : δ
  slots : List (Slot δ)
  finish : (Nat → String → ShapeFault) → δ → Decoded α

/-- Takes up the members of an object.  Those with unknown names are passed over, and no known
name may come twice. -/
def fillMembers {δ : Type} (slots : List (Slot δ)) : δ → List (String × Json) → Decoded δ
  | draft, [] => .ok draft
  | draft, (name, content) :: rest =>
      match slots.find? (·.name == name) with
      | none => fillMembers slots draft rest
      | some slot =>
          if slot.isFilled draft then misshapen (.duplicateField name)
          else do
            let draft ← slot.fill draft content
            fillMembers slots draft rest

/-- Takes up the items of an array, one for each slot, and gives back those left over. -/
def fillItems {δ : Type} : List (Slot δ) → δ → List Json → Decoded (δ × List Json)
  | [], draft, items => .ok (draft, items)
  | _ :: _, draft, [] => .ok (draft, [])
  | slot :: slots, draft, item :: items => do
      let draft ← slot.fill draft item
      fillItems slots draft items

/-- Decodes a structure from an object, or from an array of its parts in order. -/
def Shape.decode {δ α : Type} (shape : Shape δ α) (mode : Mode) : Json → Decoded α
  | .object members closed => do
      let draft ← fillMembers shape.slots shape.blank members
      let draft ← requireClosed closed draft
      shape.finish (fun _ name => .missingField name) draft
  | .array items closed => do
      let (draft, extra) ← fillItems shape.slots shape.blank items
      let draft ← requireClosed closed draft
      if extra.isEmpty then
        shape.finish (fun index _ => .missingItem index shape.name shape.slots.length) draft
      else
        match mode with
        | .streamed => .error .malformed
        | .buffered => misshapen (.extraItems items.length shape.slots.length)
  | json => mismatch json (.struct shape.name)

def require {α : Type} (missing : Nat → String → ShapeFault) (index : Nat) (name : String) :
    Option α → Decoded α
  | some part => .ok part
  | none => misshapen (missing index name)

def decodeTag {α : Type} (variants : List (String × α)) : Json → Decoded α
  | .string name => pickVariant variants name
  | json => mismatch json .variantName

/-- Finds the tag among the members of an object and keeps the others.  The tag is checked
at once, the others only for being whole. -/
def splitTag {α : Type} (tag : String) (variants : List (String × α)) :
    Option α → List (String × Json) → Decoded (Option α × List (String × Json))
  | found, [] => .ok (found, [])
  | found, (name, content) :: rest =>
      if name = tag then
        if found.isSome then misshapen (.duplicateField tag)
        else do
          let variant ← decodeTag variants content
          splitTag tag variants (some variant) rest
      else if content.whole then do
        let (found, others) ← splitTag tag variants found rest
        .ok (found, (name, content) :: others)
      else .error .malformed

/-- Decodes a structure whose kind is given by a tag: a member of the object, or the first
item of the array.  What stands beside the tag is decoded after all of it has been read. -/
def decodeTagged {α : Type} (name tag : String)
    (variants : List (String × (Json → Decoded α))) : Json → Decoded α
  | .object members closed => do
      let (found, others) ← splitTag tag variants none members
      let found ← requireClosed closed found
      match found with
      | none => misshapen (.missingField tag)
      | some decode => decode (.object others true)
  | .array [] closed => do
      requireClosed closed ()
      misshapen (.missingField tag)
  | .array (first :: rest) closed => do
      let decode ← decodeTag variants first
      let rest ← requireClosed (closed && Json.wholeItems rest) rest
      decode (.array rest true)
  | json => mismatch json (.tagged name)

end WireSchema.Wire
