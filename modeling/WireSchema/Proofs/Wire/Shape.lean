import WireSchema.Proofs.Json.Nesting
import WireSchema.Proofs.Outcome
import WireSchema.Wire.Shape

namespace WireSchema.Wire

/-! Decoding by shape, taken apart.

A sequence is decoded item by item.  A structure is made of a draft that went through its
slots, so what every slot keeps holds of the draft in the end.  A tagged structure hands
what stands beside its tag to the decoder of one of its kinds.
-/

@[simp] theorem ok_bind (value : α) (next : α → Decoded β) :
    ((Except.ok value : Decoded α) >>= next) = next value := rfl

@[simp] theorem requireClosed_true (value : α) : requireClosed true value = .ok value := rfl

@[simp] theorem misshapen_ne_ok {fault : ShapeFault} {value : α} : misshapen fault ≠ .ok value := by
  intro same
  cases same

@[simp] theorem mismatch_ne_ok {json : Json} {expected : Expected} {value : α} :
    mismatch json expected ≠ .ok value := by
  cases json <;> simp [mismatch]

@[simp] theorem noVariant_ne_ok {mode : Mode} {json : Json} {value : α} :
    noVariant mode json ≠ .ok value := by
  cases mode <;> simp [noVariant]

@[simp] theorem noEntry_ne_ok {mode : Mode} {value : α} : noEntry mode ≠ .ok value := by
  cases mode <;> simp [noEntry]

theorem requireClosed_eq_ok_iff {closed : Bool} {value result : α} :
    requireClosed closed value = .ok result ↔ closed = true ∧ value = result := by
  cases closed <;> simp [requireClosed]

theorem require_eq_ok_iff {missing : Nat → String → ShapeFault} {index : Nat} {name : String}
    {part : Option α} {value : α} :
    require missing index name part = .ok value ↔ part = some value := by
  cases part <;> simp [require]

theorem decodeItems_eq_ok_iff {decode : Json → Decoded α} {items : List Json} {values : List α} :
    decodeItems decode items = .ok values ↔
      List.Forall₂ (fun item value => decode item = .ok value) items values := by
  induction items generalizing values with
  | nil =>
      rw [List.forall₂_nil_left_iff]
      constructor
      · intro decoded
        cases decoded
        rfl
      · intro empty
        subst empty
        rfl
  | cons item rest ih =>
      rw [decodeItems, bind_eq_ok_iff, List.forall₂_cons_left_iff]
      simp only [bind_eq_ok_iff, ih]
      constructor
      · rintro ⟨value, head, later, tail, same⟩
        cases same
        exact ⟨value, later, head, tail, rfl⟩
      · rintro ⟨value, later, head, tail, rfl⟩
        exact ⟨value, head, later, tail, rfl⟩

theorem decodeSequence_eq_ok_iff {decode : Json → Decoded α} {json : Json} {values : List α} :
    decodeSequence decode json = .ok values ↔ ∃ items, json = .array items true ∧
      List.Forall₂ (fun item value => decode item = .ok value) items values := by
  cases json with
  | array items closed =>
      simp only [decodeSequence, bind_eq_ok_iff, requireClosed_eq_ok_iff, decodeItems_eq_ok_iff]
      constructor
      · rintro ⟨_, decoded, rfl, rfl⟩
        exact ⟨items, rfl, decoded⟩
      · rintro ⟨_, ⟨⟩, decoded⟩
        exact ⟨values, decoded, rfl, rfl⟩
  | object => simp [decodeSequence]
  | null => simp [decodeSequence]
  | bool => simp [decodeSequence]
  | number => simp [decodeSequence]
  | string => simp [decodeSequence]
  | broken => simp [decodeSequence]

theorem decodeSequence_item {decode : Json → Decoded α} {json : Json} {depth : Nat}
    (shallow : json.nesting ≤ depth + 1) {values : List α}
    (decoded : decodeSequence decode json = .ok values) {value : α} (member : value ∈ values) :
    ∃ item, item.nesting ≤ depth ∧ decode item = .ok value := by
  obtain ⟨items, rfl, related⟩ := decodeSequence_eq_ok_iff.mp decoded
  obtain ⟨item, place, decodedItem⟩ := forall₂_exists_right related member
  exact ⟨item, Json.nesting_array_le_succ_iff.mp shallow item place, decodedItem⟩

theorem decodeSequence_map {decode : Json → Decoded α} {toJson : α → Json} (values : List α)
    (each : ∀ value ∈ values, decode (toJson value) = .ok value) :
    decodeSequence decode (.ofItems (values.map toJson)) = .ok values := by
  rw [decodeSequence_eq_ok_iff]
  refine ⟨values.map toJson, rfl, ?_⟩
  rw [List.forall₂_map_left_iff, List.forall₂_same]
  exact each

section

variable {δ : Type} {P : δ → Prop} {depth : Nat}

/-- The property `P` of drafts survives when a slot takes up content of at most that depth. -/
def Keeps (depth : Nat) (P : δ → Prop) (slots : List (Slot δ)) : Prop :=
  ∀ slot ∈ slots, ∀ draft content filled, content.nesting ≤ depth → P draft →
    slot.fill draft content = .ok filled → P filled

theorem fillMembers_keeps {slots : List (Slot δ)} (keeps : Keeps depth P slots)
    {members : List (String × Json)} (shallow : ∀ member ∈ members, member.2.nesting ≤ depth)
    {draft result : δ} (start : P draft)
    (filled : fillMembers slots draft members = .ok result) : P result := by
  induction members generalizing draft with
  | nil =>
      cases filled
      exact start
  | cons member rest ih =>
      obtain ⟨name, content⟩ := member
      obtain ⟨contentShallow, restShallow⟩ := List.forall_mem_cons.mp shallow
      rw [fillMembers] at filled
      split at filled
      · exact ih restShallow start filled
      · rename_i slot found
        split at filled
        · cases filled
        · obtain ⟨next, step, filled⟩ := bind_eq_ok_iff.mp filled
          have kept := keeps slot (List.mem_of_find?_eq_some found) draft content next
            contentShallow start step
          exact ih restShallow kept filled

theorem fillItems_keeps {slots : List (Slot δ)} (keeps : Keeps depth P slots)
    {items extra : List Json} (shallow : ∀ item ∈ items, item.nesting ≤ depth)
    {draft result : δ} (start : P draft)
    (filled : fillItems slots draft items = .ok (result, extra)) : P result := by
  induction slots generalizing draft items with
  | nil =>
      cases filled
      exact start
  | cons slot slots ih =>
      cases items with
      | nil =>
          cases filled
          exact start
      | cons item items =>
          obtain ⟨itemShallow, restShallow⟩ := List.forall_mem_cons.mp shallow
          obtain ⟨head, later⟩ := List.forall_mem_cons.mp keeps
          rw [fillItems] at filled
          obtain ⟨next, step, filled⟩ := bind_eq_ok_iff.mp filled
          exact ih later restShallow (head draft item next itemShallow start step) filled

/-- A structure is made of a draft that went through its slots, from either form. -/
theorem Shape.draft_of_decode {shape : Shape δ α} (keeps : Keeps depth P shape.slots)
    (blank : P shape.blank) {mode : Mode} {json : Json} (shallow : json.nesting ≤ depth + 1)
    {value : α} (decoded : shape.decode mode json = .ok value) :
    ∃ missing draft, P draft ∧ shape.finish missing draft = .ok value := by
  cases json with
  | object members closed =>
      rw [Json.nesting_object_le_succ_iff] at shallow
      obtain ⟨draft, filled, decoded⟩ := bind_eq_ok_iff.mp decoded
      obtain ⟨_, unchanged, decoded⟩ := bind_eq_ok_iff.mp decoded
      obtain ⟨_, rfl⟩ := requireClosed_eq_ok_iff.mp unchanged
      exact ⟨_, draft, fillMembers_keeps keeps shallow blank filled, decoded⟩
  | array items closed =>
      rw [Json.nesting_array_le_succ_iff] at shallow
      obtain ⟨⟨draft, extra⟩, filled, decoded⟩ := bind_eq_ok_iff.mp decoded
      obtain ⟨_, unchanged, decoded⟩ := bind_eq_ok_iff.mp decoded
      obtain ⟨_, rfl⟩ := requireClosed_eq_ok_iff.mp unchanged
      split at decoded
      · exact ⟨_, draft, fillItems_keeps keeps shallow blank filled, decoded⟩
      · split at decoded <;> cases decoded
  | null => simp [Shape.decode] at decoded
  | bool => simp [Shape.decode] at decoded
  | number => simp [Shape.decode] at decoded
  | string => simp [Shape.decode] at decoded
  | broken => simp [Shape.decode] at decoded

end

section

variable {α : Type} {tag : String} {depth : Nat}

theorem decodeTag_eq_ok_iff {variants : List (String × α)} {json : Json} {variant : α} :
    decodeTag variants json = .ok variant ↔
      ∃ kind, json = .string kind ∧ variants.lookup kind = some variant := by
  cases json with
  | string kind =>
      simp only [decodeTag, pickVariant, Json.string.injEq, exists_eq_left']
      cases variants.lookup kind <;> simp
  | object => simp [decodeTag]
  | array => simp [decodeTag]
  | null => simp [decodeTag]
  | bool => simp [decodeTag]
  | number => simp [decodeTag]
  | broken => simp [decodeTag]

theorem decodeTag_mem {variants : List (String × α)} {json : Json} {variant : α}
    (picked : decodeTag variants json = .ok variant) : ∃ name, (name, variant) ∈ variants := by
  obtain ⟨kind, _, found⟩ := decodeTag_eq_ok_iff.mp picked
  obtain ⟨before, after, rfl, _⟩ := List.lookup_eq_some_iff.mp found
  exact ⟨kind, by simp⟩

theorem splitTag_mem {variants : List (String × α)} {found result : Option α}
    {members others : List (String × Json)}
    (known : ∀ variant ∈ found, ∃ name, (name, variant) ∈ variants)
    (split : splitTag tag variants found members = .ok (result, others)) :
    (∀ variant ∈ result, ∃ name, (name, variant) ∈ variants) ∧ others ⊆ members := by
  induction members generalizing found others with
  | nil =>
      cases split
      exact ⟨known, List.Subset.refl _⟩
  | cons member rest ih =>
      obtain ⟨name, content⟩ := member
      rw [splitTag] at split
      split at split
      · split at split
        · cases split
        · obtain ⟨variant, picked, split⟩ := bind_eq_ok_iff.mp split
          have named : ∀ other ∈ some variant, ∃ name, (name, other) ∈ variants := by
            intro other same
            cases same
            exact decodeTag_mem picked
          obtain ⟨later, inside⟩ := ih named split
          exact ⟨later, List.subset_cons_of_subset _ inside⟩
      split at split
      · obtain ⟨⟨later, kept⟩, tail, split⟩ := bind_eq_ok_iff.mp split
        cases split
        obtain ⟨named, inside⟩ := ih known tail
        exact ⟨named, List.cons_subset_cons _ inside⟩
      · cases split

/-- What stands beside the tag is decoded as one of the kinds, and nests no deeper. -/
theorem decodeTagged_content {name : String} {variants : List (String × (Json → Decoded α))}
    {json : Json} (shallow : json.nesting ≤ depth + 1) {value : α}
    (decoded : decodeTagged name tag variants json = .ok value) :
    ∃ kind decode content, (kind, decode) ∈ variants ∧ content.nesting ≤ depth + 1 ∧
      decode content = .ok value := by
  cases json with
  | object members closed =>
      rw [Json.nesting_object_le_succ_iff] at shallow
      obtain ⟨⟨found, others⟩, split, decoded⟩ := bind_eq_ok_iff.mp decoded
      obtain ⟨_, unchanged, decoded⟩ := bind_eq_ok_iff.mp decoded
      obtain ⟨_, rfl⟩ := requireClosed_eq_ok_iff.mp unchanged
      obtain ⟨named, inside⟩ := splitTag_mem (by simp) split
      cases found with
      | none => simp at decoded
      | some decode =>
          obtain ⟨kind, member⟩ := named decode rfl
          refine ⟨kind, decode, _, member, ?_, decoded⟩
          rw [Json.nesting_object_le_succ_iff]
          exact fun other place => shallow other (inside place)
  | array items closed =>
      rw [Json.nesting_array_le_succ_iff] at shallow
      cases items with
      | nil =>
          obtain ⟨_, _, decoded⟩ := bind_eq_ok_iff.mp decoded
          cases decoded
      | cons first rest =>
          obtain ⟨decode, picked, decoded⟩ := bind_eq_ok_iff.mp decoded
          obtain ⟨_, unchanged, decoded⟩ := bind_eq_ok_iff.mp decoded
          obtain ⟨_, rfl⟩ := requireClosed_eq_ok_iff.mp unchanged
          obtain ⟨kind, member⟩ := decodeTag_mem picked
          refine ⟨kind, decode, _, member, ?_, decoded⟩
          rw [Json.nesting_array_le_succ_iff]
          exact (List.forall_mem_cons.mp shallow).2
  | null => simp [decodeTagged] at decoded
  | bool => simp [decodeTagged] at decoded
  | number => simp [decodeTagged] at decoded
  | string => simp [decodeTagged] at decoded
  | broken => simp [decodeTagged] at decoded

theorem splitTag_whole {variants : List (String × α)} {found : Option α}
    {members : List (String × Json)} {parts : Option α × List (String × Json)}
    (split : splitTag tag variants found members = .ok parts) :
    Json.wholeMembers members = true := by
  induction members generalizing found parts with
  | nil => rfl
  | cons member rest ih =>
      obtain ⟨name, content⟩ := member
      rw [splitTag] at split
      rw [Json.wholeMembers, Bool.and_eq_true]
      split at split
      · split at split
        · cases split
        · obtain ⟨variant, picked, later⟩ := bind_eq_ok_iff.mp split
          obtain ⟨kind, rfl, _⟩ := decodeTag_eq_ok_iff.mp picked
          exact ⟨rfl, ih later⟩
      split at split
      · rename_i whole
        obtain ⟨_, tail, _⟩ := bind_eq_ok_iff.mp split
        exact ⟨whole, ih tail⟩
      · cases split

/-- The tag may come last, so all of the value has to be there. -/
theorem decodeTagged_whole {name : String} {variants : List (String × (Json → Decoded α))}
    {json : Json} {value : α} (decoded : decodeTagged name tag variants json = .ok value) :
    json.whole = true := by
  cases json with
  | object members closed =>
      obtain ⟨_, split, decoded⟩ := bind_eq_ok_iff.mp decoded
      obtain ⟨_, unchanged, _⟩ := bind_eq_ok_iff.mp decoded
      obtain ⟨rfl, _⟩ := requireClosed_eq_ok_iff.mp unchanged
      rw [Json.whole, splitTag_whole split, Bool.and_self]
  | array items closed =>
      cases items with
      | nil =>
          obtain ⟨_, _, decoded⟩ := bind_eq_ok_iff.mp decoded
          cases decoded
      | cons first rest =>
          obtain ⟨_, picked, decoded⟩ := bind_eq_ok_iff.mp decoded
          obtain ⟨_, unchanged, _⟩ := bind_eq_ok_iff.mp decoded
          obtain ⟨restWhole, _⟩ := requireClosed_eq_ok_iff.mp unchanged
          obtain ⟨kind, rfl, _⟩ := decodeTag_eq_ok_iff.mp picked
          rw [Bool.and_eq_true] at restWhole
          simp [Json.whole, Json.wholeItems, restWhole]
  | null => simp [decodeTagged] at decoded
  | bool => simp [decodeTagged] at decoded
  | number => simp [decodeTagged] at decoded
  | string => simp [decodeTagged] at decoded
  | broken => simp [decodeTagged] at decoded

theorem splitTag_untagged {tag : String} {variants : List (String × α)} {found : Option α}
    {members : List (String × Json)} (untagged : ∀ member ∈ members, member.1 ≠ tag)
    (whole : ∀ member ∈ members, member.2.whole = true) :
    splitTag tag variants found members = .ok (found, members) := by
  induction members with
  | nil => rfl
  | cons member rest ih =>
      obtain ⟨name, content⟩ := member
      obtain ⟨otherName, restUntagged⟩ := List.forall_mem_cons.mp untagged
      obtain ⟨headWhole, restWhole⟩ := List.forall_mem_cons.mp whole
      simp [splitTag, otherName, headWhole, ih restUntagged restWhole]

/-- A tag in front hands the other members over as they are. -/
theorem decodeTagged_ofMembers {name tag kind : String}
    {variants : List (String × (Json → Decoded α))} {decode : Json → Decoded α}
    (known : variants.lookup kind = some decode) {members : List (String × Json)}
    (untagged : ∀ member ∈ members, member.1 ≠ tag)
    (whole : ∀ member ∈ members, member.2.whole = true) :
    decodeTagged name tag variants (.ofMembers ((tag, .string kind) :: members)) =
      decode (.ofMembers members) := by
  simp [decodeTagged, Json.ofMembers, splitTag, decodeTag, pickVariant, known,
    splitTag_untagged untagged whole]

end

end WireSchema.Wire
