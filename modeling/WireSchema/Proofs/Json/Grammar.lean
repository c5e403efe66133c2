import WireSchema.Proofs.Json.Nesting
import WireSchema.Proofs.Json.Numeral
import WireSchema.Proofs.Json.Strings

namespace WireSchema.Json

/-! The grammar of JSON, and that the reader follows it.

The grammar says which texts spell a tree and what they leave over, with blanks wherever it
allows them.  It knows no limit of depth.  A numeral out of range or a string with half of a
surrogate pair is spelled as well, but what it spells is broken, and an object ends at such a name
without being closed.  The reader takes a text exactly when the grammar does.
-/

/-- What a numeral is in the tree. -/
def Numeral.toJson (numeral : Numeral) : Json := (numeral.number?.map .number).getD .broken

mutual
/-- The text opens with a spelling of the tree and goes on with `rest`. -/
inductive Spells : (text : List Char) → Json → (rest : List Char) → Prop
  | null {text rest : List Char} : skipSpace text = "null".toList ++ rest → Spells text .null rest
  | true {text rest : List Char} : skipSpace text = "true".toList ++ rest →
      Spells text (.bool true) rest
  | false {text rest : List Char} : skipSpace text = "false".toList ++ rest →
      Spells text (.bool false) rest
  | number {text rest : List Char} {numeral : Numeral} : skipSpace text = numeral.text ++ rest →
      numeral.Ends rest → Spells text numeral.toJson rest
  | string {text quoted rest : List Char} {value : Option String} :
      skipSpace text = '"' :: quoted → SpellsString quoted value rest →
      Spells text ((value.map .string).getD .broken) rest
  | emptyArray {text inside rest : List Char} : skipSpace text = '[' :: inside →
      skipSpace inside = ']' :: rest → Spells text (.array [] true) rest
  | array {text inside rest : List Char} {items : List Json} : skipSpace text = '[' :: inside →
      SpellsItems inside items rest → Spells text (.array items true) rest
  | emptyObject {text inside rest : List Char} : skipSpace text = '\x7b' :: inside →
      skipSpace inside = '\x7d' :: rest → Spells text (.object [] true) rest
  | object {text inside rest : List Char} {members : List (Option String × Json)} :
      skipSpace text = '\x7b' :: inside → SpellsMembers inside members rest →
      Spells text (objectOf members true) rest

/-- Items with commas between them, at least one, up to the closing bracket. -/
inductive SpellsItems : (text : List Char) → List Json → (rest : List Char) → Prop
  | last {text after rest : List Char} {item : Json} : Spells text item after →
      skipSpace after = ']' :: rest → SpellsItems text [item] rest
  | more {text after next rest : List Char} {item : Json} {items : List Json} :
      Spells text item after → skipSpace after = ',' :: next → SpellsItems next items rest →
      SpellsItems text (item :: items) rest

/-- A name, a colon and a value. -/
inductive SpellsMember : (text : List Char) → Option String × Json → (rest : List Char) → Prop
  | pair {text quoted after content rest : List Char} {name : Option String} {value : Json} :
      skipSpace text = '"' :: quoted → SpellsString quoted name after →
      skipSpace after = ':' :: content → Spells content value rest →
      SpellsMember text (name, value) rest

/-- Members with commas between them, at least one, up to the closing brace. -/
inductive SpellsMembers :
    (text : List Char) → List (Option String × Json) → (rest : List Char) → Prop
  | last {text after rest : List Char} {member : Option String × Json} :
      SpellsMember text member after → skipSpace after = '\x7d' :: rest →
      SpellsMembers text [member] rest
  | more {text after next rest : List Char} {member : Option String × Json}
      {members : List (Option String × Json)} : SpellsMember text member after →
      skipSpace after = ',' :: next → SpellsMembers next members rest →
      SpellsMembers text (member :: members) rest
end

/-- The text spells the tree, cut at the depth that is allowed, and nothing else. -/
def SpelledBy (json : Json) (text : List Char) : Prop :=
  ∃ tree rest, Spells text tree rest ∧ skipSpace rest = [] ∧ tree.cut nestingLimit = json

theorem Spells.spelledBy {text rest : List Char} {json : Json} (spelled : Spells text json rest)
    (ends : skipSpace rest = []) (shallow : json.nesting ≤ nestingLimit) : SpelledBy json text :=
  ⟨json, rest, spelled, ends, json.cut_of_nesting shallow⟩

theorem skipSpace_cons (c : Char) (text : List Char) :
    skipSpace (c :: text) = if isSpace c then skipSpace text else c :: text := by
  by_cases space : isSpace c = true
  · rw [skipSpace, List.dropWhile_cons_of_pos space, if_pos space, skipSpace]
  · rw [skipSpace, List.dropWhile_cons_of_neg space, if_neg space]

theorem skipSpace_skipSpace (text : List Char) : skipSpace (skipSpace text) = skipSpace text := by
  induction text with
  | nil => rfl
  | cons c text ih =>
      rw [skipSpace_cons]
      split
      · exact ih
      · rename_i solid
        rw [skipSpace_cons, if_neg solid]

theorem length_skipSpace_le (text : List Char) : (skipSpace text).length ≤ text.length :=
  (List.dropWhile_sublist _).length_le

theorem ne_of_inNumeral {c other : Char} (numeral : Number.inNumeral c = true)
    (apart : Number.inNumeral other = false) : c ≠ other := by
  rintro rfl
  rw [numeral] at apart
  cases apart

theorem isSpace_of_inNumeral {c : Char} (numeral : Number.inNumeral c = true) :
    isSpace c = false := by
  rw [Bool.eq_false_iff]
  intro space
  simp only [isSpace, Bool.or_eq_true, beq_iff_eq] at space
  rcases space with ((rfl | rfl) | rfl) | rfl <;> exact absurd numeral (by decide)

theorem skipSpace_numeral (numeral : Numeral) (rest : List Char) :
    skipSpace (numeral.text ++ rest) = numeral.text ++ rest := by
  obtain ⟨first, more, form, inNumeral⟩ := numeral.opens
  have solid := isSpace_of_inNumeral inNumeral
  rw [form, List.cons_append, skipSpace_cons, if_neg (by rw [solid]; exact Bool.false_ne_true)]

/-- A mark takes a character. -/
theorem length_of_mark {mark : Char} {text rest : List Char}
    (form : skipSpace text = mark :: rest) : rest.length < text.length := by
  have shorter := length_skipSpace_le text
  rw [form, List.length_cons] at shorter
  omega

mutual
/-- What is left over is shorter. -/
theorem Spells.length_lt {text rest : List Char} {json : Json} :
    Spells text json rest → rest.length < text.length
  | .null form | .true form | .false form => by
      have shorter := length_skipSpace_le text
      rw [form, List.length_append] at shorter
      simp at shorter
      omega
  | @Spells.number _ _ numeral form _ => by
      obtain ⟨first, more, opens, _⟩ := numeral.opens
      have shorter := length_skipSpace_le text
      rw [form, opens, List.cons_append, List.length_cons, List.length_append] at shorter
      omega
  | .string form spelled => Nat.lt_trans spelled.length_lt (length_of_mark form)
  | .emptyArray form closed | .emptyObject form closed =>
      Nat.lt_trans (length_of_mark closed) (length_of_mark form)
  | .array form inside => Nat.lt_trans inside.length_lt (length_of_mark form)
  | .object form inside => Nat.lt_trans inside.length_lt (length_of_mark form)

theorem SpellsItems.length_lt {text rest : List Char} {items : List Json} :
    SpellsItems text items rest → rest.length < text.length
  | .last first closed => Nat.lt_trans (length_of_mark closed) first.length_lt
  | .more first comma later =>
      Nat.lt_trans (Nat.lt_trans later.length_lt (length_of_mark comma)) first.length_lt

theorem SpellsMember.length_lt {text rest : List Char} {member : Option String × Json} :
    SpellsMember text member rest → rest.length < text.length
  | .pair form named colon value =>
      Nat.lt_trans (Nat.lt_trans value.length_lt (length_of_mark colon))
        (Nat.lt_trans named.length_lt (length_of_mark form))

theorem SpellsMembers.length_lt {text rest : List Char} {members : List (Option String × Json)} :
    SpellsMembers text members rest → rest.length < text.length
  | .last first closed => Nat.lt_trans (length_of_mark closed) first.length_lt
  | .more first comma later =>
      Nat.lt_trans (Nat.lt_trans later.length_lt (length_of_mark comma)) first.length_lt
end

section

variable {one : List Char → Json × Rest} {fuel : Nat} {text rest : List Char}

theorem readWith_skipSpace (one : List Char → Json × Rest) (fuel : Nat) (text : List Char) :
    readWith one fuel (skipSpace text) = readWith one fuel text := by
  unfold readWith
  rw [skipSpace_skipSpace]

/-- A reader that passes over blanks in front of a value. -/
def PassesBlanks (one : List Char → Json × Rest) : Prop :=
  ∀ text, one (skipSpace text) = one text

theorem readValue_skipSpace (fuel : Nat) : PassesBlanks (readValue fuel) := by
  intro text
  cases fuel with
  | zero => rfl
  | succ fuel => exact readWith_skipSpace _ fuel text

theorem readItems_skipSpace (passes : PassesBlanks one) (fuel : Nat) (text : List Char) :
    readItems one fuel (skipSpace text) = readItems one fuel text := by
  cases fuel with
  | zero => rfl
  | succ fuel => simp only [readItems, passes text]

theorem readMembers_skipSpace (one : List Char → Json × Rest) (fuel : Nat) (text : List Char) :
    readMembers one fuel (skipSpace text) = readMembers one fuel text := by
  cases fuel with
  | zero => rfl
  | succ fuel => simp only [readMembers, readMember, skipSpace_skipSpace]

theorem readWith_numeral {numeral : Numeral} (form : skipSpace text = numeral.text ++ rest)
    (ends : numeral.Ends rest) :
    readWith one fuel text = (numeral.toJson, some rest) := by
  obtain ⟨first, more, opens, inNumeral⟩ := numeral.opens
  have read := readNumber_text ends
  rw [opens, List.cons_append] at form read
  have apart {other : Char} {after : List Char} (same : first :: (more ++ rest) = other :: after) :
      Number.inNumeral other = true := (List.cons.inj same).1 ▸ inNumeral
  unfold readWith
  rw [form]
  split <;> rename_i same
  · exact absurd (apart same) (by decide)
  · exact absurd (apart same) (by decide)
  · exact absurd (apart same) (by decide)
  · exact absurd (apart same) (by decide)
  · exact absurd (apart same) (by decide)
  · exact absurd (apart same) (by decide)
  · rw [read, Numeral.toJson]

theorem Spells.opens {json : Json} (spelled : Spells text json rest) :
    ∃ first more, skipSpace text = first :: more ∧ first ≠ ']' := by
  cases spelled with
  | null form | true form | false form => exact ⟨_, _, form, by decide⟩
  | @number _ _ numeral form _ =>
      obtain ⟨first, more, opens, inNumeral⟩ := numeral.opens
      rw [opens] at form
      exact ⟨first, _, form, ne_of_inNumeral inNumeral (by decide)⟩
  | string form | emptyArray form | array form | emptyObject form | object form =>
      exact ⟨_, _, form, by decide⟩

theorem SpellsItems.opens {items : List Json} (spelled : SpellsItems text items rest) :
    ∃ first more, skipSpace text = first :: more ∧ first ≠ ']' := by
  cases spelled with
  | last first _ => exact first.opens
  | more first _ _ => exact first.opens

theorem SpellsMembers.opens {members : List (Option String × Json)}
    (spelled : SpellsMembers text members rest) : ∃ more, skipSpace text = '"' :: more := by
  cases spelled with
  | last first _ | more first _ _ =>
      cases first with
      | pair form _ _ _ => exact ⟨_, form⟩

theorem readArray_items (passes : PassesBlanks one) {items : List Json}
    (spelled : SpellsItems text items rest)
    (read : readItems one fuel text = (items, some rest)) :
    readArray one fuel text = (.array items true, some rest) := by
  obtain ⟨first, more, form, unclosed⟩ := spelled.opens
  unfold readArray
  split
  · rename_i closed
    rw [form] at closed
    exact absurd (List.cons.inj closed).1 unclosed
  · rw [readItems_skipSpace passes, read]
    rfl

theorem readObject_members {members : List (Option String × Json)}
    (spelled : SpellsMembers text members rest)
    (read : readMembers one fuel text = (members, some rest)) :
    readObject one fuel text = (objectOf members true, some rest) := by
  obtain ⟨more, form⟩ := spelled.opens
  unfold readObject
  split
  · rename_i closed
    rw [form] at closed
    exact absurd (List.cons.inj closed).1 (by decide)
  · rw [readMembers_skipSpace, read]
    rfl

end

/-- Spellings of a length up to `fuel` are what `one` reads. -/
def ReadsUpTo (fuel : Nat) (one : List Char → Json × Rest) : Prop :=
  ∀ text json rest, Spells text json rest → text.length ≤ fuel → one text = (json, some rest)

section

variable {one : List Char → Json × Rest} {fuel count : Nat} {text rest : List Char}

theorem SpellsItems.reads (reads : ReadsUpTo fuel one) {items : List Json}
    (spelled : SpellsItems text items rest) (fits : text.length ≤ fuel)
    (enough : text.length ≤ count) : readItems one count text = (items, some rest) := by
  induction count generalizing text items with
  | zero =>
      have shorter := spelled.length_lt
      omega
  | succ count ih =>
      cases spelled with
      | last first closed =>
          have read := reads _ _ _ first fits
          simp only [readItems, read, closed]
      | more first comma later =>
          have shorter := Nat.lt_trans (length_of_mark comma) first.length_lt
          have read := reads _ _ _ first fits
          have following := ih later (by omega) (by omega)
          simp only [readItems, read, comma, following]

theorem SpellsMember.reads (reads : ReadsUpTo fuel one) {member : Option String × Json}
    (spelled : SpellsMember text member rest) (fits : text.length ≤ fuel) :
    readMember one text = some (member, some rest) := by
  cases spelled with
  | pair form spelled colon value =>
      have first := Nat.lt_trans spelled.length_lt (length_of_mark form)
      have second := length_of_mark colon
      have name := readString_eq_iff.mpr spelled
      have read := reads _ _ _ value (by omega)
      simp only [readMember, form, name, Option.bind_eq_bind, Option.bind_some, colon, read]

theorem SpellsMembers.reads (reads : ReadsUpTo fuel one) {members : List (Option String × Json)}
    (spelled : SpellsMembers text members rest) (fits : text.length ≤ fuel)
    (enough : text.length ≤ count) : readMembers one count text = (members, some rest) := by
  induction count generalizing text members with
  | zero =>
      have shorter := spelled.length_lt
      omega
  | succ count ih =>
      cases spelled with
      | last first closed =>
          have read := first.reads reads fits
          simp only [readMembers, read, closed]
      | more first comma later =>
          have shorter := Nat.lt_trans (length_of_mark comma) first.length_lt
          have read := first.reads reads fits
          have following := ih later (by omega) (by omega)
          simp only [readMembers, read, comma, following]

theorem Spells.readsWith (reads : ReadsUpTo fuel one) (passes : PassesBlanks one) {json : Json}
    (spelled : Spells text json rest) (fits : text.length ≤ fuel + 1) :
    readWith one fuel text = (json, some rest) := by
  cases spelled with
  | null form | true form | false form =>
      rw [readWith, form]
      rfl
  | number form ends => exact readWith_numeral form ends
  | string form spelled =>
      have read := readString_eq_iff.mpr spelled
      simp only [readWith, form, read]
  | emptyArray form closed => simp only [readWith, form, readArray, closed]
  | array form inside =>
      have shorter := length_of_mark form
      simp only [readWith, form]
      exact readArray_items passes inside (inside.reads reads (by omega) (by omega))
  | emptyObject form closed => simp only [readWith, form, readObject, closed]
  | object form inside =>
      have shorter := length_of_mark form
      simp only [readWith, form]
      exact readObject_members inside (inside.reads reads (by omega) (by omega))

end

/-- The reader takes what the grammar allows. -/
theorem readValue_reads (fuel : Nat) : ReadsUpTo fuel (readValue fuel) := by
  -- One unit of fuel pays for the bracket or brace around what is read inside.
  induction fuel with
  | zero =>
      intro text json rest spelled fits
      have shorter := spelled.length_lt
      omega
  | succ fuel ih =>
      intro text json rest spelled fits
      exact spelled.readsWith ih (readValue_skipSpace fuel) fits

/-- What `one` reads to the end is a spelling of what it gives back. -/
def ReadsSpellings (one : List Char → Json × Rest) : Prop :=
  ∀ text json rest, one text = (json, some rest) → Spells text json rest

section

variable {one : List Char → Json × Rest} {fuel : Nat} {text rest : List Char}

theorem readItems_spells (sound : ReadsSpellings one) {items : List Json}
    (read : readItems one fuel text = (items, some rest)) : SpellsItems text items rest := by
  induction fuel generalizing text items with
  | zero => cases read
  | succ fuel ih =>
      rw [readItems] at read
      split at read
      · cases read
      · rename_i item after found
        have first := sound _ _ _ found
        split at read
        · rename_i closed
          cases read
          exact .last first closed
        · rename_i following comma
          cases later : readItems one fuel following with
          | mk tail left =>
              rw [later] at read
              cases read
              exact .more first comma (ih later)
        · cases read

theorem readMember_spells (sound : ReadsSpellings one) {member : Option String × Json}
    (read : readMember one text = some (member, some rest)) : SpellsMember text member rest := by
  unfold readMember at read
  split at read
  · rename_i quoted form
    cases found : readString quoted with
    | none => simp [found] at read
    | some result =>
        obtain ⟨name, after⟩ := result
        simp only [found, Option.bind_eq_bind, Option.bind_some] at read
        split at read
        · rename_i content colon
          cases value : one content with
          | mk json left =>
              rw [value] at read
              cases read
              exact .pair form (readString_eq_iff.mp found) colon (sound _ _ _ value)
        · cases read
  · cases read

theorem readMembers_spells (sound : ReadsSpellings one) {members : List (Option String × Json)}
    (read : readMembers one fuel text = (members, some rest)) :
    SpellsMembers text members rest := by
  induction fuel generalizing text members with
  | zero => cases read
  | succ fuel ih =>
      rw [readMembers] at read
      split at read
      · cases read
      · cases read
      · rename_i member after found
        have first := readMember_spells sound found
        split at read
        · rename_i closed
          cases read
          exact .last first closed
        · rename_i following comma
          cases later : readMembers one fuel following with
          | mk tail left =>
              rw [later] at read
              cases read
              exact .more first comma (ih later)
        · cases read

theorem readArray_spells (passes : PassesBlanks one) (sound : ReadsSpellings one)
    {inside : List Char} {json : Json} (form : skipSpace text = '[' :: inside)
    (read : readArray one fuel inside = (json, some rest)) : Spells text json rest := by
  unfold readArray at read
  split at read
  · rename_i closed
    cases read
    exact .emptyArray form closed
  · rw [readItems_skipSpace passes] at read
    cases found : readItems one fuel inside with
    | mk items left =>
        rw [found] at read
        cases read
        exact .array form (readItems_spells sound found)

theorem readObject_spells (sound : ReadsSpellings one) {inside : List Char} {json : Json}
    (form : skipSpace text = '\x7b' :: inside)
    (read : readObject one fuel inside = (json, some rest)) : Spells text json rest := by
  unfold readObject at read
  split at read
  · rename_i closed
    cases read
    exact .emptyObject form closed
  · rw [readMembers_skipSpace] at read
    cases found : readMembers one fuel inside with
    | mk members left =>
        rw [found] at read
        cases read
        exact .object form (readMembers_spells sound found)

theorem readWith_spells {json : Json} (read : readWith one fuel text = (json, some rest))
    (passes : PassesBlanks one) (sound : ReadsSpellings one) : Spells text json rest := by
  unfold readWith at read
  split at read
  · rename_i form
    cases read
    exact .null form
  · rename_i form
    cases read
    exact .true form
  · rename_i form
    cases read
    exact .false form
  · rename_i form
    split at read
    · rename_i found
      cases read
      exact .string form (readString_eq_iff.mp found)
    · cases read
  · rename_i form
    exact readArray_spells passes sound form read
  · rename_i form
    exact readObject_spells sound form read
  · split at read
    · rename_i found
      cases read
      obtain ⟨numeral, form, ends, rfl⟩ := readNumber_eq_iff.mp found
      exact .number form ends
    · cases read

end

/-- The grammar allows what the reader takes. -/
theorem readValue_spells (fuel : Nat) : ReadsSpellings (readValue fuel) := by
  induction fuel with
  | zero =>
      intro text json rest read
      cases read
  | succ fuel ih =>
      intro text json rest read
      exact readWith_spells read (readValue_skipSpace fuel) ih

theorem readDocument_eq_iff {text : List Char} {json : Json} :
    readDocument text = ⟨json, true⟩ ↔ SpelledBy json text := by
  constructor
  · intro read
    cases found : readValue text.length text with
    | mk tree left =>
        simp only [readDocument, found, Document.mk.injEq] at read
        obtain ⟨same, complete⟩ := read
        cases left with
        | none => cases complete
        | some rest =>
            exact ⟨tree, rest, readValue_spells _ _ _ _ found, List.isEmpty_iff.mp complete, same⟩
  · rintro ⟨tree, rest, spelled, ends, rfl⟩
    have read := readValue_reads text.length text tree rest spelled (Nat.le_refl _)
    simp [readDocument, read, ends]

/-- A text spells one tree at most. -/
theorem SpelledBy.unique {text : List Char} {left right : Json} (spellsLeft : SpelledBy left text)
    (spellsRight : SpelledBy right text) : left = right := by
  have same := (readDocument_eq_iff.mpr spellsLeft).symm.trans (readDocument_eq_iff.mpr spellsRight)
  exact (Document.mk.inj same).1

end WireSchema.Json
