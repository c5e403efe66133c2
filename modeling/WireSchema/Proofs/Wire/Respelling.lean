import Mathlib.Logic.Relation
import WireSchema.Proofs.Wire.Members
import WireSchema.Proofs.Wire.RoundTrip

namespace WireSchema.Wire

/-! What matters in the JSON text of a schema, and what does not.

Members may come in any order, and members that mean nothing to the decoder may come with
them.  What such a member of the schema itself holds is never looked at: it may be out of range,
half of a surrogate pair or nested without limit.  Inside of a type everything is kept until the
tag is known, so it has to be whole there.  An empty list and a key equal to the name may as well
be left out.  A member that comes twice is refused.
-/

abbrev Members := List (String × Json)

/-- One item of a list among the members is changed, everything else stays. -/
inductive Within (list : String) (change : Json → Json → Prop) : Members → Members → Prop
  | item {front back : Members} {before after : List Json} {item other : Json} :
      change item other →
      Within list change (front ++ (list, .ofItems (before ++ item :: after)) :: back)
        (front ++ (list, .ofItems (before ++ other :: after)) :: back)

/-- The members of an object are changed. -/
inductive OnMembers (change : Members → Members → Prop) : Json → Json → Prop
  | object {members others : Members} : change members others →
      OnMembers change (.ofMembers members) (.ofMembers others)

/-- What stands beside the tag is changed.  The tag itself may stand anywhere. -/
inductive Beside (kind : String) (change : Members → Members → Prop) : Members → Members → Prop
  | tag {members beside changed others : Members} :
      members.Perm (("kind", .string kind) :: beside) → change beside changed →
      others.Perm (("kind", .string kind) :: changed) → Beside kind change members others

/-- The members come in another order, or with one more that means nothing.  It may be put in
front, as another order can follow.  Where everything is read before it is decoded, it has to be
whole. -/
inductive Edit (known : List String) (mode : Mode) : Members → Members → Prop
  | permuted {members others : Members} : members.Perm others → Edit known mode members others
  | added {members : Members} {name : String} {value : Json} :
      name ∉ known → name ≠ "kind" → (mode = .buffered → value.whole = true) →
      Edit known mode members ((name, value) :: members)

/-- A member is left out, or written where its name is absent, if next to the others it says
nothing new. -/
inductive Optional (name : String) (idle : Json → Members → Prop) : Members → Members → Prop
  | dropped {rest : Members} {content : Json} : idle content rest →
      Optional name idle ((name, content) :: rest) rest
  | written {rest : Members} {content : Json} : idle content rest →
      (∀ member ∈ rest, member.1 ≠ name) → Optional name idle rest ((name, content) :: rest)

/-- A list without items. -/
def EmptyList (content : Json) (_ : Members) : Prop :=
  content = .ofItems []

/-- A key that is null, or the name of the field. -/
def KeyAsName (content : Json) (rest : Members) : Prop :=
  ∃ name, ("name", .string name) ∈ rest ∧ (content = .null ∨ content = .string name)

def caseNames : List String := ["name", "value"]

def enumNames : List String := ["name", "backing_kind", "cases"]

def fieldNames : List String := ["name", "type_ref", "serialized_key"]

def recordNames : List String := ["name", "fields"]

def schemaNames : List String := ["types"]

def FieldEdit (members others : Members) : Prop :=
  Edit fieldNames .buffered members others ∨ Optional "serialized_key" KeyAsName members others

def EnumEdit (members others : Members) : Prop :=
  Edit enumNames .buffered members others ∨ Optional "cases" EmptyList members others ∨
    Within "cases" (OnMembers (Edit caseNames .buffered)) members others

def RecordEdit (members others : Members) : Prop :=
  Edit recordNames .buffered members others ∨ Optional "fields" EmptyList members others ∨
    Within "fields" (OnMembers FieldEdit) members others

def DeclEdit (members others : Members) : Prop :=
  Beside "enum" EnumEdit members others ∨ Beside "record" RecordEdit members others

/-- One edit somewhere in a schema. -/
def SchemaEdit (members others : Members) : Prop :=
  Edit schemaNames .streamed members others ∨ Optional "types" EmptyList members others ∨
    Within "types" (OnMembers DeclEdit) members others

/-- A member with a known name comes once more, at any place and with any value. -/
inductive Repeat (known : List String) : Members → Members → Prop
  | again {members others : Members} {name : String} {content value : Json} :
      name ∈ known → (name, content) ∈ members → others.Perm ((name, value) :: members) →
      Repeat known members others

def EnumRepeat (members others : Members) : Prop :=
  Repeat enumNames members others ∨ Within "cases" (OnMembers (Repeat caseNames)) members others

def RecordRepeat (members others : Members) : Prop :=
  Repeat recordNames members others ∨ Within "fields" (OnMembers (Repeat fieldNames)) members others

def DeclRepeat (members others : Members) : Prop :=
  Repeat ["kind"] members others ∨ Beside "enum" EnumRepeat members others ∨
    Beside "record" RecordRepeat members others

/-- One repetition somewhere in a schema. -/
def SchemaRepeat (members others : Members) : Prop :=
  Repeat schemaNames members others ∨ Within "types" (OnMembers DeclRepeat) members others

/-- The decoder takes the other value for the same, and nothing in it is broken that was not. -/
structure Unnoticed (decode : Json → Decoded α) (json other : Json) : Prop where
  value : ∀ value, decode json = .ok value → decode other = .ok value
  whole : json.whole = true → other.whole = true

theorem Unnoticed.bind {decode : Json → Decoded α} {json other : Json}
    (unnoticed : Unnoticed decode json other) (next : α → Decoded β) :
    Unnoticed (fun content => decode content >>= next) json other where
  value result decoded := by
    obtain ⟨value, head, tail⟩ := bind_eq_ok_iff.mp decoded
    exact bind_eq_ok_iff.mpr ⟨value, unnoticed.value value head, tail⟩
  whole := unnoticed.whole

/-- The same for the members of an object, and no tag comes in either. -/
structure UnnoticedBeside (decode : Json → Decoded α) (members others : Members) : Prop extends
    Unnoticed decode (.ofMembers members) (.ofMembers others) where
  untagged : (∀ member ∈ members, member.1 ≠ "kind") → ∀ member ∈ others, member.1 ≠ "kind"

theorem UnnoticedBeside.bind {decode : Json → Decoded α} {members others : Members}
    (unnoticed : UnnoticedBeside decode members others) (next : α → Decoded β) :
    UnnoticedBeside (fun content => decode content >>= next) members others :=
  ⟨unnoticed.toUnnoticed.bind next, unnoticed.untagged⟩

theorem whole_ofMembers_iff {members : Members} :
    (Json.ofMembers members).whole = true ↔ ∀ member ∈ members, member.2.whole = true := by
  simp [Json.ofMembers, Json.whole, Json.wholeMembers_iff]

theorem whole_ofItems_iff {items : List Json} :
    (Json.ofItems items).whole = true ↔ ∀ item ∈ items, item.whole = true := by
  simp [Json.ofItems, Json.whole, Json.wholeItems_iff]

section

variable {δ α β : Type} {members others : Members} {list kind : String}

theorem Edit.decoded (shape : Shape δ α) {mode : Mode} (lawful : Lawful shape.slots)
    (edit : Edit (shape.slots.map Slot.name) mode members others) {value : α}
    (decoded : shape.decode mode (.ofMembers members) = .ok value) :
    shape.decode mode (.ofMembers others) = .ok value := by
  cases edit with
  | permuted reordered => exact shape.decode_perm lawful reordered decoded
  | added unknown _ _ => rw [shape.decode_unknown (slotFor_eq_none_iff.mpr unknown), decoded]

theorem Edit.unnoticed (shape : Shape δ α) (lawful : Lawful shape.slots)
    (edit : Edit (shape.slots.map Slot.name) .buffered members others) :
    UnnoticedBeside (shape.decode .buffered) members others := by
  refine ⟨⟨fun value => edit.decoded shape lawful, ?_⟩, ?_⟩
  · simp only [whole_ofMembers_iff]
    intro whole
    cases edit with
    | permuted reordered => exact fun member place => whole member (reordered.symm.subset place)
    | added _ _ kept => exact List.forall_mem_cons.mpr ⟨kept rfl, whole⟩
  · intro untagged
    cases edit with
    | permuted reordered => exact fun member place => untagged member (reordered.symm.subset place)
    | added _ plain _ => exact List.forall_mem_cons.mpr ⟨plain, untagged⟩

theorem Optional.unnoticed {shape : Shape δ α} {slot : Slot δ} {idle : Json → Members → Prop}
    (mode : Mode) (lawful : Lawful shape.slots) (known : slotFor shape.slots list = some slot)
    (blank : slot.isFilled shape.blank = false) (plain : list ≠ "kind")
    (harmless : ∀ content rest, idle content rest →
      content.whole = true ∧ shape.Idle slot content rest)
    (edit : Optional list idle members others) :
    UnnoticedBeside (shape.decode mode) members others := by
  cases edit with
  | dropped idles =>
      obtain ⟨whole, idle⟩ := harmless _ _ idles
      refine ⟨⟨fun value => shape.decode_dropped lawful known idle, ?_⟩, ?_⟩
      · simp only [whole_ofMembers_iff, List.forall_mem_cons]
        exact And.right
      · exact fun untagged => (List.forall_mem_cons.mp untagged).2
  | written idles absent =>
      obtain ⟨whole, idle⟩ := harmless _ _ idles
      refine ⟨⟨fun value => shape.decode_written lawful known blank idle absent, ?_⟩, ?_⟩
      · simp only [whole_ofMembers_iff, List.forall_mem_cons]
        exact fun rest => ⟨whole, rest⟩
      · exact fun untagged => List.forall_mem_cons.mpr ⟨plain, untagged⟩

theorem Optional.list_unnoticed {shape : Shape δ α} {decode : Json → Decoded β} (mode : Mode)
    (lawful : Lawful shape.slots) (part : shape.ListPart list decode) (plain : list ≠ "kind")
    (edit : Optional list EmptyList members others) :
    UnnoticedBeside (shape.decode mode) members others := by
  refine edit.unnoticed mode lawful part.known part.blank plain fun content rest empty => ?_
  rw [empty]
  exact ⟨rfl, part.idle rest⟩

theorem keyAsName_idle (mode : Mode) {content : Json} {rest : Members}
    (asName : KeyAsName content rest) :
    (fieldShape mode).Idle ((fieldShape mode).slots.getLast nofun) content rest := by
  obtain ⟨name, present, contents⟩ := asName
  intro draft filled free
  obtain ⟨last, named⟩ := (fieldShape_lawful mode).fill_of_mem rfl present filled
  cases named
  have keyless : last.key = none := Option.not_isSome_iff_eq_none.mp (Bool.eq_false_iff.mp free)
  rcases contents with rfl | rfl
  · exact ⟨_, rfl, fun missing => by simp [fieldShape, keyless, require]⟩
  · exact ⟨_, rfl, fun missing => by simp [fieldShape, keyless, require]⟩

theorem Within.unnoticed {shape : Shape δ α} {decode : Json → Decoded β} (mode : Mode)
    (part : shape.ListPart list decode) {change : Json → Json → Prop}
    (each : ∀ item other, change item other → Unnoticed decode item other)
    (edit : Within list change members others) :
    UnnoticedBeside (shape.decode mode) members others := by
  cases edit with
  | @item front back before after item other changed =>
      have unnoticed := each item other changed
      refine ⟨⟨fun value => ?_, ?_⟩, ?_⟩
      · refine shape.decode_replaced part.known fun draft filled => ?_
        simp only [part.fills, decodeSequence_ofItems, bind_eq_ok_iff]
        rintro ⟨values, decoded, same⟩
        exact ⟨values, decodeItems_replaced unnoticed.value decoded, same⟩
      · simp only [whole_ofMembers_iff, List.forall_mem_append, List.forall_mem_cons,
          whole_ofItems_iff]
        rintro ⟨wholeFront, ⟨wholeBefore, wholeItem, wholeAfter⟩, wholeBack⟩
        exact ⟨wholeFront, ⟨wholeBefore, unnoticed.whole wholeItem, wholeAfter⟩, wholeBack⟩
      · simp only [List.forall_mem_append, List.forall_mem_cons]
        exact id

theorem OnMembers.unnoticed {decode : Json → Decoded α} {change : Members → Members → Prop}
    (each : ∀ members others, change members others →
      Unnoticed decode (.ofMembers members) (.ofMembers others))
    {json other : Json} (edit : OnMembers change json other) : Unnoticed decode json other := by
  cases edit with
  | object changed => exact each _ _ changed

/-- A change beside the tag goes unnoticed if the kind that the tag names does not notice it. -/
theorem Beside.unnoticed {name : String} {variants : List (String × (Json → Decoded α))}
    {decode : Json → Decoded α} (known : variants.lookup kind = some decode)
    {change : Members → Members → Prop}
    (reorders : ∀ members others, members.Perm others → change members others)
    (each : ∀ members others, change members others → UnnoticedBeside decode members others)
    (edit : Beside kind change members others) :
    Unnoticed (decodeTagged name "kind" variants) (.ofMembers members) (.ofMembers others) := by
  cases edit with
  | @tag beside changed _ split change splitChanged =>
      have unnoticed := each beside changed change
      constructor
      · intro value decoded
        obtain ⟨_, _, found, knownFound, tagged, decoded⟩ := decodeTagged_taggedAs decoded
        obtain ⟨same, reordered⟩ := tagged.unique split
        cases same
        cases known.symm.trans knownFound
        have untagged := unnoticed.untagged fun member place =>
          tagged.untagged member (reordered.subset place)
        have whole := unnoticed.whole (whole_ofMembers_iff.mpr fun member place =>
          tagged.whole member (reordered.subset place))
        have taggedChanged : TaggedAs "kind" kind others changed :=
          ⟨splitChanged, untagged, whole_ofMembers_iff.mp whole⟩
        have decodedBeside := (each _ _ (reorders _ _ reordered.symm)).value value decoded
        have decodedChanged := unnoticed.value value decodedBeside
        exact taggedChanged.decodeTagged known fun later moved =>
          (each _ _ (reorders _ _ moved)).value value decodedChanged
      · have wholeTag : (Json.string kind).whole = true := rfl
        simp only [whole_ofMembers_iff, split.mem_iff, splitChanged.mem_iff, List.forall_mem_cons]
        rintro ⟨_, whole⟩
        exact ⟨wholeTag, whole_ofMembers_iff.mp (unnoticed.whole (whole_ofMembers_iff.mpr whole))⟩

theorem FieldEdit.unnoticed (edit : FieldEdit members others) :
    UnnoticedBeside (decodeField .buffered) members others := by
  rcases edit with edit | edit
  · exact Edit.unnoticed (fieldShape .buffered) (fieldShape_lawful .buffered) edit
  · refine edit.unnoticed .buffered (fieldShape_lawful .buffered) rfl rfl (by decide) ?_
    intro content rest asName
    refine ⟨?_, keyAsName_idle .buffered asName⟩
    obtain ⟨name, _, rfl | rfl⟩ := asName
    · rfl
    · rfl

theorem EnumEdit.unnoticed (edit : EnumEdit members others) :
    UnnoticedBeside (decodeEnum .buffered) members others := by
  rcases edit with edit | edit | edit
  · exact Edit.unnoticed (enumShape .buffered) (enumShape_lawful .buffered) edit
  · exact edit.list_unnoticed .buffered (enumShape_lawful .buffered) (caseList .buffered) (by decide)
  · refine edit.unnoticed .buffered (caseList .buffered) fun item other edit => ?_
    refine edit.unnoticed fun members others edit => ?_
    exact (Edit.unnoticed caseShape caseShape_lawful edit).toUnnoticed

theorem RecordEdit.unnoticed (edit : RecordEdit members others) :
    UnnoticedBeside (decodeRecord .buffered) members others := by
  rcases edit with edit | edit | edit
  · exact Edit.unnoticed (recordShape .buffered) (recordShape_lawful .buffered) edit
  · exact edit.list_unnoticed .buffered (recordShape_lawful .buffered) (fieldList .buffered)
      (by decide)
  · refine edit.unnoticed .buffered (fieldList .buffered) fun item other edit => ?_
    exact edit.unnoticed fun members others edit => (FieldEdit.unnoticed edit).toUnnoticed

theorem DeclEdit.unnoticed (edit : DeclEdit members others) :
    Unnoticed decodeDecl (.ofMembers members) (.ofMembers others) := by
  rcases edit with edit | edit
  · refine edit.unnoticed rfl (fun _ _ moved => .inl (.permuted moved)) fun members others edit => ?_
    exact (EnumEdit.unnoticed edit).bind _
  · refine edit.unnoticed rfl (fun _ _ moved => .inl (.permuted moved)) fun members others edit => ?_
    exact (RecordEdit.unnoticed edit).bind _

theorem SchemaEdit.decoded (edit : SchemaEdit members others) {decls : List TypeDecl}
    (decoded : decodeSchema (.ofMembers members) = .ok decls) :
    decodeSchema (.ofMembers others) = .ok decls := by
  rcases edit with edit | edit | edit
  · exact edit.decoded schemaShape schemaShape_lawful decoded
  · exact (edit.list_unnoticed .streamed schemaShape_lawful declList (by decide)).value decls decoded
  · refine (edit.unnoticed .streamed declList fun item other edit => ?_).value decls decoded
    exact edit.unnoticed fun members others edit => DeclEdit.unnoticed edit

/-- Edits add up. -/
theorem decodeSchema_edited (edits : Relation.ReflTransGen SchemaEdit members others)
    {decls : List TypeDecl} (decoded : decodeSchema (.ofMembers members) = .ok decls) :
    decodeSchema (.ofMembers others) = .ok decls := by
  induction edits with
  | refl => exact decoded
  | tail _ edit ih => exact edit.decoded ih

def Refused (decode : Json → Decoded α) (json : Json) : Prop :=
  ∀ value, decode json ≠ .ok value

theorem Refused.bind {decode : Json → Decoded α} {json : Json} (refused : Refused decode json)
    (next : α → Decoded β) : Refused (fun content => decode content >>= next) json := by
  intro result decoded
  obtain ⟨value, head, _⟩ := bind_eq_ok_iff.mp decoded
  exact refused value head

theorem Repeat.refused (shape : Shape δ α) (mode : Mode) (lawful : Lawful shape.slots)
    (again : Repeat (shape.slots.map Slot.name) members others) :
    Refused (shape.decode mode) (.ofMembers others) := by
  cases again with
  | again known present repeated =>
      intro value
      exact shape.decode_repeated lawful (mt slotFor_eq_none_iff.mp (not_not_intro known)) present
        repeated

theorem Within.refused {shape : Shape δ α} {decode : Json → Decoded β} (mode : Mode)
    (part : shape.ListPart list decode) {change : Json → Json → Prop}
    (each : ∀ item other, change item other → Refused decode other)
    (again : Within list change members others) :
    Refused (shape.decode mode) (.ofMembers others) := by
  cases again with
  | item changed =>
      intro value
      refine shape.decode_refused part.known fun draft filled => ?_
      rw [part.fills, decodeSequence_ofItems]
      intro taken
      obtain ⟨values, decoded, _⟩ := bind_eq_ok_iff.mp taken
      exact decodeItems_refused (each _ _ changed) decoded

theorem OnMembers.refused {decode : Json → Decoded α} {change : Members → Members → Prop}
    (each : ∀ members others, change members others → Refused decode (.ofMembers others))
    {json other : Json} (again : OnMembers change json other) : Refused decode other := by
  cases again with
  | object changed => exact each _ _ changed

theorem Beside.refused {name : String} {variants : List (String × (Json → Decoded α))}
    {decode : Json → Decoded α} (known : variants.lookup kind = some decode)
    {change : Members → Members → Prop}
    (reorders : ∀ members others, members.Perm others →
      UnnoticedBeside decode members others)
    (each : ∀ members others, change members others → Refused decode (.ofMembers others))
    (again : Beside kind change members others) :
    Refused (decodeTagged name "kind" variants) (.ofMembers others) := by
  cases again with
  | tag _ changed split =>
      intro value decoded
      obtain ⟨_, _, found, knownFound, tagged, decoded⟩ := decodeTagged_taggedAs decoded
      obtain ⟨same, reordered⟩ := tagged.unique split
      cases same
      cases known.symm.trans knownFound
      exact each _ _ changed value ((reorders _ _ reordered.symm).value value decoded)

theorem EnumRepeat.refused (again : EnumRepeat members others) :
    Refused (decodeEnum .buffered) (.ofMembers others) := by
  rcases again with again | again
  · exact Repeat.refused (enumShape .buffered) .buffered (enumShape_lawful .buffered) again
  · refine again.refused .buffered (caseList .buffered) fun item other again => ?_
    refine again.refused fun members others again => ?_
    exact Repeat.refused caseShape .buffered caseShape_lawful again

theorem RecordRepeat.refused (again : RecordRepeat members others) :
    Refused (decodeRecord .buffered) (.ofMembers others) := by
  rcases again with again | again
  · exact Repeat.refused (recordShape .buffered) .buffered (recordShape_lawful .buffered) again
  · refine again.refused .buffered (fieldList .buffered) fun item other again => ?_
    refine again.refused fun members others again => ?_
    exact Repeat.refused (fieldShape .buffered) .buffered (fieldShape_lawful .buffered) again

theorem DeclRepeat.refused (again : DeclRepeat members others) :
    Refused decodeDecl (.ofMembers others) := by
  rcases again with again | again | again
  · cases again with
    | again known present repeated =>
        intro value decoded
        obtain ⟨_, _, _, _, tagged, _⟩ := decodeTagged_taggedAs decoded
        rw [List.mem_singleton] at known
        subst known
        exact tagged.not_repeated present repeated
  · refine again.refused rfl (fun members others moved => ?_) fun members others again => ?_
    · exact (EnumEdit.unnoticed (.inl (.permuted moved))).bind _
    · exact (EnumRepeat.refused again).bind _
  · refine again.refused rfl (fun members others moved => ?_) fun members others again => ?_
    · exact (RecordEdit.unnoticed (.inl (.permuted moved))).bind _
    · exact (RecordRepeat.refused again).bind _

theorem SchemaRepeat.refused (again : SchemaRepeat members others) :
    Refused decodeSchema (.ofMembers others) := by
  rcases again with again | again
  · exact Repeat.refused schemaShape .streamed schemaShape_lawful again
  · refine again.refused .streamed declList fun item other again => ?_
    exact again.refused fun members others again => DeclRepeat.refused again

end

end WireSchema.Wire

namespace WireSchema.Model

open Wire

end WireSchema.Model

namespace WireSchema

open Wire

def role : Model where
  decls := [.enum ⟨"Role", .string, []⟩]
  valid := by decide

def enumTag : String × Json := ("kind", .string "enum")

def roleMembers : Members := [("name", .string "Role"), ("backing_kind", .string "string")]

def typesOf (decl : Members) : String × Json := ("types", .ofItems [.ofMembers decl])

/-- The cases are written out, and the tag comes last. -/
def respelledDecl : Members := ("cases", .ofItems []) :: roleMembers ++ [enumTag]

/-- The name is given twice. -/
def repeatedDecl : Members := ("name", .string "Role") :: enumTag :: roleMembers

/-- The version is out of range, and nobody asks for it. -/
def roleText : String :=
  "\x7b\"v\":1e999,\"types\":[\x7b\"kind\":\"enum\",\"name\":\"Role\",\"backing_kind\":\"string\"\x7d]\x7d"

/-- The version comes last, and half of a surrogate pair with it. -/
def respelledText : String :=
  "\x7b\"types\":[\x7b\"cases\":[],\"name\":\"Role\",\"backing_kind\":\"string\",\"kind\":\"enum\"\x7d],\"w\":\"\\ud800\",\"v\":1e999\x7d"

def repeatedText : String :=
  "\x7b\"v\":1e999,\"types\":[\x7b\"name\":\"Role\",\"kind\":\"enum\",\"name\":\"Role\",\"backing_kind\":\"string\"\x7d]\x7d"

theorem role_edits :
    Relation.ReflTransGen SchemaEdit [("v", .broken), typesOf (enumTag :: roleMembers)]
      [typesOf respelledDecl, ("w", .broken), ("v", .broken)] := by
  have inDecl : DeclEdit (enumTag :: roleMembers) respelledDecl :=
    .inl (.tag (.refl _) (.inr (.inl (.written rfl (by decide))))
      (List.perm_append_singleton _ _))
  have inSchema : SchemaEdit [("v", .broken), typesOf (enumTag :: roleMembers)]
      [("v", .broken), typesOf respelledDecl] :=
    .inr (.inr (@Within.item "types" _ [("v", .broken)] [] [] [] _ _ (.object inDecl)))
  have added : SchemaEdit [("v", .broken), typesOf respelledDecl]
      [("w", .broken), ("v", .broken), typesOf respelledDecl] :=
    .inl (.added (by decide) (by decide) nofun)
  have permuted : SchemaEdit [("w", .broken), ("v", .broken), typesOf respelledDecl]
      [typesOf respelledDecl, ("w", .broken), ("v", .broken)] :=
    .inl (.permuted (((List.Perm.swap _ _ _).cons _).trans (.swap _ _ _)))
  exact ((Relation.ReflTransGen.single inSchema).tail added).tail permuted

theorem role_repeated : SchemaRepeat [("v", .broken), typesOf (enumTag :: roleMembers)]
    [("v", .broken), typesOf repeatedDecl] := by
  have inDecl : DeclRepeat (enumTag :: roleMembers) repeatedDecl :=
    .inr (.inl (.tag (.refl _) (.inl (.again (by decide) List.mem_cons_self (.refl _)))
      (.swap _ _ _)))
  exact .inr (@Within.item "types" _ [("v", .broken)] [] [] [] _ _ (.object inDecl))

section

variable {rest : List Char}

/-- Beyond the doubles. -/
def huge : Json.Numeral := Json.powerNumeral 999

def versionText (rest : List Char) : List Char := Json.quotedThen "v" (':' :: (huge.text ++ rest))

theorem spells_versionText (ends : Json.EndsNumeral rest) :
    Json.SpellsMember (versionText rest) (some "v", .broken) rest := by
  have nothing : huge.number? = none := by decide +kernel
  have spelled := Json.Spells.number (Json.skipSpace_numeral huge rest) (ends.ends huge)
  rw [Json.Numeral.toJson, nothing] at spelled
  exact Json.spellsMember_quoted "v" spelled

def halfText (rest : List Char) : List Char :=
  Json.quotedThen "w" (':' :: '"' :: '\\' :: 'u' :: 'd' :: '8' :: '0' :: '0' :: '"' :: rest)

theorem spells_halfText : Json.SpellsMember (halfText rest) (some "w", .broken) rest :=
  Json.spellsMember_quoted "w" (.string rfl ⟨[.code 0xD800], .code rfl .closed, rfl⟩)

def typesText (decl : Members) (rest : List Char) : List Char :=
  Json.quotedThen "types" (':' :: ((Json.ofItems [.ofMembers decl]).write ++ rest))

theorem spells_typesText {decl : Members} (exact : ∀ member ∈ decl, member.2.Exact)
    (ends : Json.EndsNumeral rest) :
    Json.SpellsMember (typesText decl rest) (some "types", .ofItems [.ofMembers decl]) rest := by
  have list : (Json.ofItems [.ofMembers decl]).Exact := .array (by simpa using .object exact)
  exact Json.spellsMember_quoted "types" (list.spellsItself rest ends)

theorem spelledBy_versionFirst {decl : Members} (exact : ∀ member ∈ decl, member.2.Exact)
    (shallow : (Json.ofMembers [("v", .broken), typesOf decl]).nesting ≤ Json.nestingLimit) :
    Json.SpelledBy (.ofMembers [("v", .broken), typesOf decl])
      ('\x7b' :: versionText (',' :: typesText decl ['\x7d'])) := by
  have version := spells_versionText
    (@Json.endsNumeral_cons ',' (by simp) (typesText decl ['\x7d']))
  have types := spells_typesText exact (@Json.endsNumeral_cons '\x7d' (by simp) [])
  have members := Json.SpellsMembers.more version rfl (.last types rfl)
  exact Json.Spells.spelledBy (.object rfl members) rfl shallow

end

end WireSchema
