import Mathlib.Data.List.Pairwise
import WireSchema.Proofs.Json.ReadBack
import WireSchema.Proofs.Wire.Shape
import WireSchema.Wire.Decode

namespace WireSchema.Wire

/-! Structures do not depend on the order of their members.

A draft takes up one member after the other.  Two members with different names fill
different parts of it, so either may come first.  Two members with one known name never both
find a place.
-/

section

variable {δ : Type} {slots : List (Slot δ)} {slot : Slot δ} {draft next result : δ}

/-- The slot that a name belongs to. -/
def slotFor (slots : List (Slot δ)) (name : String) : Option (Slot δ) :=
  slots.find? (·.name == name)

theorem slotFor_some {name : String} (known : slotFor slots name = some slot) :
    slot ∈ slots ∧ slot.name = name :=
  ⟨List.mem_of_find?_eq_some known, by simpa using List.find?_some known⟩

theorem slotFor_eq_none_iff {name : String} :
    slotFor slots name = none ↔ name ∉ slots.map Slot.name := by
  simp [slotFor, List.find?_eq_none]

/-- Takes up a single member. -/
def takeMember (slots : List (Slot δ)) (draft : δ) (member : String × Json) : Decoded δ :=
  match slotFor slots member.1 with
  | none => .ok draft
  | some slot =>
      if slot.isFilled draft then misshapen (.duplicateField member.1)
      else slot.fill draft member.2

theorem takeMember_unknown {member : String × Json} (unknown : slotFor slots member.1 = none) :
    takeMember slots draft member = .ok draft := by
  simp only [takeMember, unknown]

theorem takeMember_known {member : String × Json} (known : slotFor slots member.1 = some slot) :
    takeMember slots draft member = .ok next ↔
      slot.isFilled draft = false ∧ slot.fill draft member.2 = .ok next := by
  simp only [takeMember, known]
  split <;> simp_all

theorem fillMembers_cons (slots : List (Slot δ)) (draft : δ) (member : String × Json)
    (rest : List (String × Json)) :
    fillMembers slots draft (member :: rest) =
      takeMember slots draft member >>= (fillMembers slots · rest) := by
  obtain ⟨name, content⟩ := member
  rw [fillMembers, takeMember, slotFor]
  cases slots.find? (·.name == name) with
  | none => rfl
  | some slot =>
      simp only
      split <;> rfl

theorem fillMembers_singleton (slots : List (Slot δ)) (draft : δ) (member : String × Json) :
    fillMembers slots draft [member] = takeMember slots draft member := by
  rw [fillMembers_cons]
  exact bind_pure _

theorem fillMembers_append (slots : List (Slot δ)) (draft : δ)
    (members others : List (String × Json)) :
    fillMembers slots draft (members ++ others) =
      fillMembers slots draft members >>= (fillMembers slots · others) := by
  induction members generalizing draft with
  | nil => rfl
  | cons member rest ih =>
      rw [List.cons_append, fillMembers_cons, fillMembers_cons, bind_assoc]
      exact bind_congr fun next => ih next

end

section

variable {δ : Type} {slots : List (Slot δ)} {slot first second : Slot δ} {draft result : δ}

structure Slot.Independent (first second : Slot δ) : Prop where
  keepsSecond : ∀ {draft filled : δ} {content : Json}, first.fill draft content = .ok filled →
    second.isFilled filled = second.isFilled draft
  keepsFirst : ∀ {draft filled : δ} {content : Json}, second.fill draft content = .ok filled →
    first.isFilled filled = first.isFilled draft
  commute : ∀ {draft result : δ} {left right : Json},
    (first.fill draft left >>= (second.fill · right)) = .ok result ↔
      (second.fill draft right >>= (first.fill · left)) = .ok result

instance : Std.Symm (@Slot.Independent δ) where
  symm _ _ independent :=
    ⟨independent.keepsFirst, independent.keepsSecond, independent.commute.symm⟩

/-- Slots that decode their content and put it into a part of the draft each. -/
theorem Slot.Independent.of_puts {α β : Type}
    {decodeFirst : Json → Decoded α} {decodeSecond : Json → Decoded β}
    {putFirst : δ → α → δ} {putSecond : δ → β → δ}
    (fillsFirst : ∀ draft content, first.fill draft content =
      decodeFirst content >>= fun value => .ok (putFirst draft value))
    (fillsSecond : ∀ draft content, second.fill draft content =
      decodeSecond content >>= fun value => .ok (putSecond draft value))
    (keepsSecond : ∀ draft value, second.isFilled (putFirst draft value) = second.isFilled draft)
    (keepsFirst : ∀ draft value, first.isFilled (putSecond draft value) = first.isFilled draft)
    (commute : ∀ draft left right,
      putSecond (putFirst draft left) right = putFirst (putSecond draft right) left) :
    first.Independent second where
  keepsSecond filled := by
    rw [fillsFirst, bind_eq_ok_iff] at filled
    obtain ⟨value, _, same⟩ := filled
    cases same
    exact keepsSecond _ value
  keepsFirst filled := by
    rw [fillsSecond, bind_eq_ok_iff] at filled
    obtain ⟨value, _, same⟩ := filled
    cases same
    exact keepsFirst _ value
  commute := by
    intro draft result left right
    simp only [fillsFirst, fillsSecond, bind_eq_ok_iff, Except.ok.injEq]
    constructor
    · rintro ⟨_, ⟨first, decodedFirst, rfl⟩, second, decodedSecond, rfl⟩
      exact ⟨_, ⟨second, decodedSecond, rfl⟩, first, decodedFirst, (commute _ _ _).symm⟩
    · rintro ⟨_, ⟨second, decodedSecond, rfl⟩, first, decodedFirst, rfl⟩
      exact ⟨_, ⟨first, decodedFirst, rfl⟩, second, decodedSecond, commute _ _ _⟩

/-- A slot that has taken up content is filled. -/
def Slot.Fills (slot : Slot δ) : Prop :=
  ∀ draft content filled, slot.fill draft content = .ok filled → slot.isFilled filled = true

theorem Slot.Fills.of_put {α : Type} {decode : Json → Decoded α} {put : δ → α → δ}
    (fills : ∀ draft content, slot.fill draft content =
      decode content >>= fun value => .ok (put draft value))
    (filled : ∀ draft value, slot.isFilled (put draft value) = true) : slot.Fills := by
  intro draft content result taken
  rw [fills, bind_eq_ok_iff] at taken
  obtain ⟨value, _, same⟩ := taken
  cases same
  exact filled draft value

/-- Each slot fills its own part. -/
structure Lawful (slots : List (Slot δ)) : Prop where
  fills : ∀ slot ∈ slots, slot.Fills
  independent : slots.Pairwise Slot.Independent

namespace Lawful

theorem apart (lawful : Lawful slots) (firstIn : first ∈ slots) (secondIn : second ∈ slots)
    (different : first.name ≠ second.name) : first.Independent second :=
  lawful.independent.forall firstIn secondIn (mt (congrArg Slot.name) different)

/-- Two members one after the other may come in the other order. -/
theorem takeMember_swap (lawful : Lawful slots) {left right : String × Json} {middle : δ}
    (takenLeft : takeMember slots draft left = .ok middle)
    (takenRight : takeMember slots middle right = .ok result) :
    ∃ other, takeMember slots draft right = .ok other ∧ takeMember slots other left = .ok result := by
  cases foundLeft : slotFor slots left.1 with
  | none =>
      cases (takeMember_unknown foundLeft).symm.trans takenLeft
      exact ⟨result, takenRight, takeMember_unknown foundLeft⟩
  | some first =>
      cases foundRight : slotFor slots right.1 with
      | none =>
          cases (takeMember_unknown foundRight).symm.trans takenRight
          exact ⟨draft, takeMember_unknown foundRight, takenLeft⟩
      | some second =>
          obtain ⟨firstIn, firstName⟩ := slotFor_some foundLeft
          obtain ⟨secondIn, secondName⟩ := slotFor_some foundRight
          obtain ⟨firstFree, firstFilled⟩ := (takeMember_known foundLeft).mp takenLeft
          obtain ⟨secondFree, secondFilled⟩ := (takeMember_known foundRight).mp takenRight
          have different : first.name ≠ second.name := by
            intro same
            rw [← firstName, same, secondName, foundRight] at foundLeft
            cases foundLeft
            rw [lawful.fills _ firstIn _ _ _ firstFilled] at secondFree
            cases secondFree
          have apart := lawful.apart firstIn secondIn different
          obtain ⟨other, filled, filledAfter⟩ := bind_eq_ok_iff.mp
            (apart.commute.mp (bind_eq_ok_iff.mpr ⟨middle, firstFilled, secondFilled⟩))
          refine ⟨other, (takeMember_known foundRight).mpr ⟨?_, filled⟩,
            (takeMember_known foundLeft).mpr ⟨?_, filledAfter⟩⟩
          · rw [← apart.keepsSecond firstFilled, secondFree]
          · rw [apart.keepsFirst filled, firstFree]

theorem fillMembers_perm (lawful : Lawful slots) {members others : List (String × Json)}
    (reordered : members.Perm others) (filled : fillMembers slots draft members = .ok result) :
    fillMembers slots draft others = .ok result := by
  induction reordered generalizing draft with
  | nil => exact filled
  | cons member _ ih =>
      rw [fillMembers_cons, bind_eq_ok_iff] at filled ⊢
      obtain ⟨next, taken, later⟩ := filled
      exact ⟨next, taken, ih later⟩
  | swap left right rest =>
      simp only [fillMembers_cons, bind_eq_ok_iff] at filled ⊢
      obtain ⟨middle, takenFirst, last, takenSecond, later⟩ := filled
      obtain ⟨other, takenEarly, takenLate⟩ := lawful.takeMember_swap takenFirst takenSecond
      exact ⟨other, takenEarly, last, takenLate, later⟩
  | trans _ _ ihFirst ihSecond => exact ihSecond (ihFirst filled)

/-- The member in front may as well be taken up in the end. -/
theorem fillMembers_cons_iff (lawful : Lawful slots) {member : String × Json}
    {rest : List (String × Json)} :
    fillMembers slots draft (member :: rest) = .ok result ↔
      ∃ last, fillMembers slots draft rest = .ok last ∧ takeMember slots last member = .ok result := by
  have turned : (member :: rest).Perm (rest ++ [member]) := (List.perm_append_singleton _ _).symm
  have atEnd : fillMembers slots draft (rest ++ [member]) = .ok result ↔
      ∃ last, fillMembers slots draft rest = .ok last ∧
        takeMember slots last member = .ok result := by
    simp only [fillMembers_append, fillMembers_singleton, bind_eq_ok_iff]
  rw [← atEnd]
  exact ⟨lawful.fillMembers_perm turned, lawful.fillMembers_perm turned.symm⟩

/-- A name that does not come leaves its slot free. -/
theorem free_of_absent (lawful : Lawful slots) {name : String} (known : slotFor slots name = some slot)
    {members : List (String × Json)} (absent : ∀ member ∈ members, member.1 ≠ name)
    (filled : fillMembers slots draft members = .ok result) :
    slot.isFilled result = slot.isFilled draft := by
  induction members generalizing draft with
  | nil =>
      cases filled
      rfl
  | cons member rest ih =>
      obtain ⟨otherName, absentLater⟩ := List.forall_mem_cons.mp absent
      rw [fillMembers_cons, bind_eq_ok_iff] at filled
      obtain ⟨next, taken, later⟩ := filled
      rw [ih absentLater later]
      cases found : slotFor slots member.1 with
      | none =>
          cases (takeMember_unknown found).symm.trans taken
          rfl
      | some other =>
          obtain ⟨otherIn, otherIs⟩ := slotFor_some found
          obtain ⟨slotIn, slotIs⟩ := slotFor_some known
          have different : other.name ≠ slot.name := by rwa [otherIs, slotIs]
          exact (lawful.apart otherIn slotIn different).keepsSecond
            ((takeMember_known found).mp taken).2

/-- What comes under a known name has been taken up, as if it had come in the end. -/
theorem fill_of_mem (lawful : Lawful slots) {name : String} (known : slotFor slots name = some slot)
    {content : Json} {members : List (String × Json)} (present : (name, content) ∈ members)
    (filled : fillMembers slots draft members = .ok result) :
    ∃ last, slot.fill last content = .ok result := by
  obtain ⟨before, after, rfl⟩ := List.append_of_mem present
  obtain ⟨last, _, taken⟩ :=
    lawful.fillMembers_cons_iff.mp (lawful.fillMembers_perm List.perm_middle filled)
  exact ⟨last, ((takeMember_known known).mp taken).2⟩

/-- A known name that comes twice is refused. -/
theorem fillMembers_repeated (lawful : Lawful slots) {name : String} (known : slotFor slots name ≠ none)
    {content value : Json} {members : List (String × Json)} (present : (name, content) ∈ members) :
    fillMembers slots draft ((name, value) :: members) ≠ .ok result := by
  intro filled
  obtain ⟨slot, found⟩ := Option.ne_none_iff_exists'.mp known
  obtain ⟨before, after, rfl⟩ := List.append_of_mem present
  have reordered : ((name, value) :: (before ++ (name, content) :: after)).Perm
      ((name, value) :: (name, content) :: (before ++ after)) :=
    List.perm_middle.cons _
  have filled := lawful.fillMembers_perm reordered filled
  simp only [fillMembers_cons, bind_eq_ok_iff] at filled
  obtain ⟨next, taken, last, takenAgain, _⟩ := filled
  obtain ⟨_, filledOnce⟩ := (takeMember_known found).mp taken
  obtain ⟨free, _⟩ := (takeMember_known found).mp takenAgain
  rw [lawful.fills _ (slotFor_some found).1 _ _ _ filledOnce] at free
  cases free

end Lawful

end

namespace Shape

section

variable {δ α : Type} {shape : Shape δ α} {slot : Slot δ} {mode : Mode} {value : α}
  {name : String} {content : Json} {members others rest front back : List (String × Json)}

theorem decode_ofMembers_iff :
    shape.decode mode (.ofMembers members) = .ok value ↔
      ∃ draft, fillMembers shape.slots shape.blank members = .ok draft ∧
        shape.finish (fun _ name => .missingField name) draft = .ok value := by
  simp [decode, Json.ofMembers, bind_eq_ok_iff]

theorem decode_perm (lawful : Lawful shape.slots) (reordered : members.Perm others)
    (decoded : shape.decode mode (.ofMembers members) = .ok value) :
    shape.decode mode (.ofMembers others) = .ok value := by
  rw [decode_ofMembers_iff] at decoded ⊢
  obtain ⟨draft, filled, finished⟩ := decoded
  exact ⟨draft, lawful.fillMembers_perm reordered filled, finished⟩

/-- A member with an unknown name is passed over, whatever it holds. -/
theorem decode_unknown (unknown : slotFor shape.slots name = none) :
    shape.decode mode (.ofMembers ((name, content) :: rest)) =
      shape.decode mode (.ofMembers rest) := by
  have skipped : takeMember shape.slots shape.blank (name, content) = .ok shape.blank :=
    takeMember_unknown unknown
  simp only [decode, Json.ofMembers, fillMembers_cons, skipped, ok_bind]

/-- Next to the other members the content says only what would be there anyway. -/
def Idle (shape : Shape δ α) (slot : Slot δ) (content : Json) (rest : List (String × Json)) : Prop :=
  ∀ draft, fillMembers shape.slots shape.blank rest = .ok draft → slot.isFilled draft = false →
    ∃ filled, slot.fill draft content = .ok filled ∧
      ∀ missing, shape.finish missing filled = shape.finish missing draft

/-- An idle member may be left out. -/
theorem decode_dropped (lawful : Lawful shape.slots) (known : slotFor shape.slots name = some slot)
    (idle : shape.Idle slot content rest)
    (decoded : shape.decode mode (.ofMembers ((name, content) :: rest)) = .ok value) :
    shape.decode mode (.ofMembers rest) = .ok value := by
  rw [decode_ofMembers_iff] at decoded ⊢
  obtain ⟨result, filled, finished⟩ := decoded
  obtain ⟨draft, filledRest, taken⟩ := lawful.fillMembers_cons_iff.mp filled
  obtain ⟨free, fills⟩ := (takeMember_known known).mp taken
  obtain ⟨same, fillsSame, unchanged⟩ := idle draft filledRest free
  cases fillsSame.symm.trans fills
  exact ⟨draft, filledRest, by rw [← unchanged, finished]⟩

/-- An idle member may be written where its name is absent. -/
theorem decode_written (lawful : Lawful shape.slots) (known : slotFor shape.slots name = some slot)
    (blank : slot.isFilled shape.blank = false) (idle : shape.Idle slot content rest)
    (absent : ∀ member ∈ rest, member.1 ≠ name)
    (decoded : shape.decode mode (.ofMembers rest) = .ok value) :
    shape.decode mode (.ofMembers ((name, content) :: rest)) = .ok value := by
  rw [decode_ofMembers_iff] at decoded ⊢
  obtain ⟨draft, filledRest, finished⟩ := decoded
  have free : slot.isFilled draft = false :=
    (lawful.free_of_absent known absent filledRest).trans blank
  obtain ⟨result, fills, unchanged⟩ := idle draft filledRest free
  have taken : takeMember shape.slots draft (name, content) = .ok result :=
    (takeMember_known known).mpr ⟨free, fills⟩
  exact ⟨result, lawful.fillMembers_cons_iff.mpr ⟨draft, filledRest, taken⟩,
    by rw [unchanged, finished]⟩

/-- What a known member holds may change as far as its slot does not see it. -/
theorem decode_replaced (known : slotFor shape.slots name = some slot) {other : Json}
    (same : ∀ draft filled, slot.fill draft content = .ok filled → slot.fill draft other = .ok filled)
    (decoded : shape.decode mode (.ofMembers (front ++ (name, content) :: back)) = .ok value) :
    shape.decode mode (.ofMembers (front ++ (name, other) :: back)) = .ok value := by
  simp only [decode_ofMembers_iff, fillMembers_append, fillMembers_cons, bind_eq_ok_iff] at decoded ⊢
  obtain ⟨result, ⟨draft, before, next, taken, after⟩, finished⟩ := decoded
  obtain ⟨free, fills⟩ := (takeMember_known known).mp taken
  have takenOther : takeMember shape.slots draft (name, other) = .ok next :=
    (takeMember_known known).mpr ⟨free, same draft next fills⟩
  exact ⟨result, ⟨draft, before, next, takenOther, after⟩, finished⟩

theorem decode_refused (known : slotFor shape.slots name = some slot)
    (refuses : ∀ draft filled, slot.fill draft content ≠ .ok filled) :
    shape.decode mode (.ofMembers (front ++ (name, content) :: back)) ≠ .ok value := by
  intro decoded
  simp only [decode_ofMembers_iff, fillMembers_append, fillMembers_cons, bind_eq_ok_iff] at decoded
  obtain ⟨_, ⟨draft, _, next, taken, _⟩, _⟩ := decoded
  exact refuses draft next ((takeMember_known known).mp taken).2

theorem decode_repeated (lawful : Lawful shape.slots) (known : slotFor shape.slots name ≠ none)
    {again : Json} (present : (name, content) ∈ members)
    (repeated : others.Perm ((name, again) :: members)) :
    shape.decode mode (.ofMembers others) ≠ .ok value := by
  intro decoded
  obtain ⟨draft, filled, _⟩ := decode_ofMembers_iff.mp decoded
  exact lawful.fillMembers_repeated known present (lawful.fillMembers_perm repeated filled)

end

/-- A part that is a list, and empty where it is left out. -/
structure ListPart {δ α β : Type} (shape : Shape δ α) (name : String)
    (decode : Json → Decoded β) where
  slot : Slot δ
  put : δ → List β → δ
  known : slotFor shape.slots name = some slot
  fills : ∀ draft json, slot.fill draft json =
    decodeSequence decode json >>= fun values => .ok (put draft values)
  blank : slot.isFilled shape.blank = false
  empty : ∀ draft missing, slot.isFilled draft = false →
    shape.finish missing (put draft []) = shape.finish missing draft

namespace ListPart

variable {δ α β : Type} {shape : Shape δ α} {name : String} {decode : Json → Decoded β}

theorem idle (part : shape.ListPart name decode) (rest : List (String × Json)) :
    shape.Idle part.slot (.ofItems []) rest := by
  intro draft _ free
  refine ⟨part.put draft [], ?_, fun missing => part.empty draft missing free⟩
  rw [part.fills]
  rfl

end ListPart

end Shape

section

variable {α : Type} {decode : Json → Decoded α} {before after : List Json} {item other : Json}
  {values : List α}

theorem decodeSequence_ofItems (decode : Json → Decoded α) (items : List Json) :
    decodeSequence decode (.ofItems items) = decodeItems decode items :=
  bind_pure _

theorem decodeItems_replaced (same : ∀ value, decode item = .ok value → decode other = .ok value)
    (decoded : decodeItems decode (before ++ item :: after) = .ok values) :
    decodeItems decode (before ++ other :: after) = .ok values := by
  induction before generalizing values with
  | nil =>
      simp only [List.nil_append, decodeItems, bind_eq_ok_iff] at decoded ⊢
      obtain ⟨value, head, rest⟩ := decoded
      exact ⟨value, same value head, rest⟩
  | cons first before ih =>
      simp only [List.cons_append, decodeItems, bind_eq_ok_iff] at decoded ⊢
      obtain ⟨value, head, later, tail, together⟩ := decoded
      exact ⟨value, head, later, ih tail, together⟩

theorem decodeItems_refused (refuses : ∀ value, decode item ≠ .ok value) :
    decodeItems decode (before ++ item :: after) ≠ .ok values := by
  intro decoded
  obtain ⟨value, _, decodedItem⟩ := forall₂_exists_left (decodeItems_eq_ok_iff.mp decoded)
    (List.mem_append_right before List.mem_cons_self)
  exact refuses value decodedItem

end

/-- One of the members is the tag, the others stand beside it. -/
structure TaggedAs (tag kind : String) (members beside : List (String × Json)) : Prop where
  split : members.Perm ((tag, .string kind) :: beside)
  untagged : ∀ member ∈ beside, member.1 ≠ tag
  whole : ∀ member ∈ beside, member.2.whole = true

section

variable {α : Type} {name tag kind : String} {variants : List (String × (Json → Decoded α))}
  {decode : Json → Decoded α} {members beside before after others : List (String × Json)} {value : α}

/-- An object has one tag, and so one way to split it off. -/
theorem TaggedAs.unique (tagged : TaggedAs tag kind members beside) {content : Json}
    (split : members.Perm ((tag, content) :: others)) :
    content = .string kind ∧ others.Perm beside := by
  have both := split.symm.trans tagged.split
  rcases List.mem_cons.mp (both.subset List.mem_cons_self) with same | elsewhere
  · cases same
    exact ⟨rfl, both.cons_inv⟩
  · exact absurd rfl (tagged.untagged _ elsewhere)

/-- A tag that comes twice is no tag. -/
theorem TaggedAs.not_repeated (tagged : TaggedAs tag kind others beside) {content again : Json}
    (present : (tag, content) ∈ members) (repeated : others.Perm ((tag, again) :: members)) :
    False := by
  obtain ⟨_, rest⟩ := tagged.unique repeated
  exact tagged.untagged _ (rest.subset present) rfl

theorem splitTag_found {found : Json → Decoded α} {result : Option (Json → Decoded α)}
    (split : splitTag tag variants (some found) members = .ok (result, others)) :
    result = some found ∧ others = members ∧ (∀ member ∈ members, member.1 ≠ tag) ∧
      ∀ member ∈ members, member.2.whole = true := by
  induction members generalizing others with
  | nil =>
      cases split
      simp
  | cons member rest ih =>
      obtain ⟨name, content⟩ := member
      rw [splitTag] at split
      split at split
      · simp at split
      split at split
      · rename_i otherName whole
        obtain ⟨⟨later, kept⟩, tail, same⟩ := bind_eq_ok_iff.mp split
        cases same
        obtain ⟨rfl, rfl, untagged, wholeLater⟩ := ih tail
        exact ⟨rfl, rfl, List.forall_mem_cons.mpr ⟨otherName, untagged⟩,
          List.forall_mem_cons.mpr ⟨whole, wholeLater⟩⟩
      · cases split

theorem splitTag_taggedAs (split : splitTag tag variants none members = .ok (some decode, others)) :
    ∃ kind, variants.lookup kind = some decode ∧ TaggedAs tag kind members others := by
  induction members generalizing others with
  | nil => cases split
  | cons member rest ih =>
      obtain ⟨name, content⟩ := member
      rw [splitTag] at split
      split at split
      · rename_i same
        subst same
        obtain ⟨found, picked, split⟩ := bind_eq_ok_iff.mp split
        obtain ⟨same, rfl, untagged, whole⟩ := splitTag_found split
        cases same
        obtain ⟨kind, rfl, known⟩ := decodeTag_eq_ok_iff.mp picked
        exact ⟨kind, known, .refl _, untagged, whole⟩
      split at split
      · rename_i otherName whole
        obtain ⟨⟨later, kept⟩, tail, same⟩ := bind_eq_ok_iff.mp split
        cases same
        obtain ⟨kind, known, tagged⟩ := ih tail
        refine ⟨kind, known, ?_, List.forall_mem_cons.mpr ⟨otherName, tagged.untagged⟩,
          List.forall_mem_cons.mpr ⟨whole, tagged.whole⟩⟩
        exact (tagged.split.cons _).trans (.swap _ _ _)
      · cases split

theorem splitTag_append (known : variants.lookup kind = some decode)
    (untagged : ∀ member ∈ before ++ after, member.1 ≠ tag)
    (whole : ∀ member ∈ before ++ after, member.2.whole = true) :
    splitTag tag variants none (before ++ (tag, .string kind) :: after) =
      .ok (some decode, before ++ after) := by
  induction before with
  | nil =>
      simp only [List.nil_append] at untagged whole ⊢
      simp [splitTag, decodeTag, pickVariant, known, splitTag_untagged untagged whole]
  | cons member before ih =>
      obtain ⟨name, content⟩ := member
      obtain ⟨otherName, untaggedLater⟩ := List.forall_mem_cons.mp untagged
      obtain ⟨headWhole, wholeLater⟩ := List.forall_mem_cons.mp whole
      simp [splitTag, otherName, headWhole, ih untaggedLater wholeLater]

/-- What is decoded has a tag, and what stands beside it is decoded as that kind. -/
theorem decodeTagged_taggedAs
    (decoded : decodeTagged name tag variants (.ofMembers members) = .ok value) :
    ∃ kind decode beside, variants.lookup kind = some decode ∧
      TaggedAs tag kind members beside ∧ decode (.ofMembers beside) = .ok value := by
  obtain ⟨⟨found, beside⟩, split, decoded⟩ := bind_eq_ok_iff.mp decoded
  cases found with
  | none => simp at decoded
  | some decode =>
      obtain ⟨kind, known, tagged⟩ := splitTag_taggedAs split
      exact ⟨kind, decode, beside, known, tagged, decoded⟩

/-- The tag may stand anywhere, as long as the kind is decoded from its members in any order. -/
theorem TaggedAs.decodeTagged (tagged : TaggedAs tag kind members beside)
    (known : variants.lookup kind = some decode)
    (reorders : ∀ others, beside.Perm others → decode (.ofMembers others) = .ok value) :
    decodeTagged name tag variants (.ofMembers members) = .ok value := by
  obtain ⟨before, after, rfl⟩ :=
    List.append_of_mem (tagged.split.symm.subset List.mem_cons_self)
  obtain ⟨_, rest⟩ := tagged.unique List.perm_middle
  have untagged : ∀ member ∈ before ++ after, member.1 ≠ tag :=
    fun member place => tagged.untagged member (rest.subset place)
  have whole : ∀ member ∈ before ++ after, member.2.whole = true :=
    fun member place => tagged.whole member (rest.subset place)
  have split := splitTag_append known untagged whole
  simp only [Wire.decodeTagged, Json.ofMembers, split, ok_bind, requireClosed_true]
  exact reorders _ rest.symm

end

theorem caseShape_lawful : Lawful caseShape.slots where
  fills := by
    simp only [caseShape, List.forall_mem_cons, List.not_mem_nil, false_implies, implies_true, and_true]
    and_intros
    all_goals exact .of_put (fun _ _ => rfl) (fun _ _ => rfl)
  independent := by
    simp only [caseShape, List.pairwise_cons, List.forall_mem_cons, List.not_mem_nil, false_implies,
      implies_true, List.Pairwise.nil, and_true]
    exact .of_puts (fun _ _ => rfl) (fun _ _ => rfl) (fun _ _ => rfl) (fun _ _ => rfl)
      (fun _ _ _ => rfl)

theorem enumShape_lawful (mode : Mode) : Lawful (enumShape mode).slots where
  fills := by
    simp only [enumShape, List.forall_mem_cons, List.not_mem_nil, false_implies, implies_true, and_true]
    and_intros
    all_goals exact .of_put (fun _ _ => rfl) (fun _ _ => rfl)
  independent := by
    simp only [enumShape, List.pairwise_cons, List.forall_mem_cons, List.not_mem_nil, false_implies,
      implies_true, List.Pairwise.nil, and_true]
    and_intros
    all_goals
      exact .of_puts (fun _ _ => rfl) (fun _ _ => rfl) (fun _ _ => rfl) (fun _ _ => rfl)
        (fun _ _ _ => rfl)

theorem fieldShape_lawful (mode : Mode) : Lawful (fieldShape mode).slots where
  fills := by
    simp only [fieldShape, List.forall_mem_cons, List.not_mem_nil, false_implies, implies_true, and_true]
    and_intros
    all_goals exact .of_put (fun _ _ => rfl) (fun _ _ => rfl)
  independent := by
    simp only [fieldShape, List.pairwise_cons, List.forall_mem_cons, List.not_mem_nil, false_implies,
      implies_true, List.Pairwise.nil, and_true]
    and_intros
    all_goals
      exact .of_puts (fun _ _ => rfl) (fun _ _ => rfl) (fun _ _ => rfl) (fun _ _ => rfl)
        (fun _ _ _ => rfl)

theorem recordShape_lawful (mode : Mode) : Lawful (recordShape mode).slots where
  fills := by
    simp only [recordShape, List.forall_mem_cons, List.not_mem_nil, false_implies, implies_true, and_true]
    and_intros
    all_goals exact .of_put (fun _ _ => rfl) (fun _ _ => rfl)
  independent := by
    simp only [recordShape, List.pairwise_cons, List.forall_mem_cons, List.not_mem_nil, false_implies,
      implies_true, List.Pairwise.nil, and_true]
    exact .of_puts (fun _ _ => rfl) (fun _ _ => rfl) (fun _ _ => rfl) (fun _ _ => rfl)
      (fun _ _ _ => rfl)

theorem schemaShape_lawful : Lawful schemaShape.slots where
  fills := by
    simp only [schemaShape, List.forall_mem_singleton]
    exact .of_put (fun _ _ => rfl) (fun _ _ => rfl)
  independent := List.pairwise_singleton _ _

def caseList (mode : Mode) : (enumShape mode).ListPart "cases" (caseShape.decode mode) where
  slot := (enumShape mode).slots.getLast nofun
  put draft cases := { draft with cases := some cases }
  known := rfl
  fills _ _ := rfl
  blank := rfl
  empty draft missing free := by
    have none : draft.cases = none := Option.not_isSome_iff_eq_none.mp (Bool.eq_false_iff.mp free)
    simp [enumShape, none]

def fieldList (mode : Mode) :
    (recordShape mode).ListPart "fields" ((fieldShape mode).decode mode) where
  slot := (recordShape mode).slots.getLast nofun
  put draft fields := { draft with fields := some fields }
  known := rfl
  fills _ _ := rfl
  blank := rfl
  empty draft missing free := by
    have none : draft.fields = none := Option.not_isSome_iff_eq_none.mp (Bool.eq_false_iff.mp free)
    simp [recordShape, none]

def declList : schemaShape.ListPart "types" decodeDecl where
  slot := schemaShape.slots.getLast nofun
  put draft decls := { draft with decls := some decls }
  known := rfl
  fills _ _ := rfl
  blank := rfl
  empty draft missing free := by
    have none : draft.decls = none := Option.not_isSome_iff_eq_none.mp (Bool.eq_false_iff.mp free)
    simp [schemaShape, none]

end WireSchema.Wire
