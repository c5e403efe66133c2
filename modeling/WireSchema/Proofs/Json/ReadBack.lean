import WireSchema.Proofs.Json.Grammar

namespace WireSchema.Json

/-! What the writer writes spells the value again.

The writer leaves no blanks and the grammar asks for none.  So the text of a value is read back
as that value, cut at the depth that is allowed.
-/

/-- Values that lose nothing in writing: all of them are there, and the numbers are integers
of 64 bits. -/
inductive Exact : Json → Prop where
  | null : Exact .null
  | bool (value : Bool) : Exact (.bool value)
  | integer {value : Int} (least : leastInteger ≤ value) (greatest : value ≤ greatestInteger) :
      Exact (.number (.integer value))
  | string (text : String) : Exact (.string text)
  | array {items : List Json} (exact : ∀ item ∈ items, Exact item) : Exact (.array items true)
  | object {members : List (String × Json)} (exact : ∀ member ∈ members, Exact member.2) :
      Exact (.object members true)

theorem Exact.whole {json : Json} (exact : json.Exact) : json.whole = true := by
  induction exact with
  | null => rfl
  | bool => rfl
  | integer => rfl
  | string => rfl
  | array _ ih => simpa [Json.whole, wholeItems_iff] using ih
  | object _ ih => simpa [Json.whole, wholeMembers_iff] using ih

/-- What the writer writes for the value spells it, whatever ends a numeral after it. -/
def SpellsItself (json : Json) : Prop :=
  ∀ rest, EndsNumeral rest → Spells (json.write ++ rest) json rest

def withName (member : String × Json) : Option String × Json := (some member.1, member.2)

theorem objectOf_withName (members : List (String × Json)) :
    objectOf (members.map withName) true = .object members true := by
  have names : named (members.map withName) = members := by
    induction members with
    | nil => rfl
    | cons member members ih => rw [List.map_cons, withName, named, ih]
  simp [objectOf, names, withName]

/-- The text in quotes, and what follows it. -/
def quotedThen (text : String) (rest : List Char) : List Char :=
  '"' :: (text.toList.flatMap escape ++ '"' :: rest)

theorem quoteChars_append (text : String) (rest : List Char) :
    Text.quoteChars escape text.toList ++ rest = quotedThen text rest := by
  simp [Text.quoteChars, quotedThen]

theorem spells_quoted (text : String) (rest : List Char) :
    Spells (quotedThen text rest) (.string text) rest :=
  .string rfl (spellsString_quoted text rest)

theorem spellsMember_quoted (name : String) {content rest : List Char} {value : Json}
    (spelled : Spells content value rest) :
    SpellsMember (quotedThen name (':' :: content)) (some name, value) rest :=
  .pair rfl (spellsString_quoted name _) rfl spelled

section

variable {rest : List Char}

theorem spellsItself_integer {value : Int} (least : leastInteger ≤ value)
    (greatest : value ≤ greatestInteger) : SpellsItself (.number (.integer value)) := by
  intro rest ends
  have spelled := Spells.number (skipSpace_numeral _ rest)
    (ends.ends (wholeNumeral (decide (value < 0)) value.natAbs))
  rwa [Numeral.toJson, wholeNumeral_number? least greatest, ← integer_text] at spelled

theorem spellsItems_write {items : List Json} (nonempty : items ≠ [])
    (each : ∀ item ∈ items, SpellsItself item) :
    SpellsItems (writeItems items ++ ']' :: rest) items rest := by
  induction items with
  | nil => exact absurd rfl nonempty
  | cons item tail ih =>
      obtain ⟨head, later⟩ := List.forall_mem_cons.mp each
      cases tail with
      | nil => exact .last (head _ (endsNumeral_cons (by simp) rest)) rfl
      | cons next tail =>
          rw [writeItems, List.append_assoc]
          · exact .more (head _ (endsNumeral_cons (by simp) _)) rfl
              (ih (List.cons_ne_nil _ _) later)
          · exact List.cons_ne_nil _ _

theorem spellsMembers_write {members : List (String × Json)} (nonempty : members ≠ [])
    (each : ∀ member ∈ members, SpellsItself member.2) :
    SpellsMembers (writeMembers members ++ '\x7d' :: rest) (members.map withName) rest := by
  induction members with
  | nil => exact absurd rfl nonempty
  | cons member tail ih =>
      obtain ⟨head, later⟩ := List.forall_mem_cons.mp each
      cases tail with
      | nil =>
          rw [writeMembers, List.append_assoc, List.cons_append, quoteChars_append]
          exact .last (spellsMember_quoted _ (head _ (endsNumeral_cons (by simp) rest))) rfl
      | cons next tail =>
          rw [writeMembers, List.append_assoc, List.cons_append, List.append_assoc,
            quoteChars_append]
          · exact .more (spellsMember_quoted _ (head _ (endsNumeral_cons (by simp) _))) rfl
              (ih (List.cons_ne_nil _ _) later)
          · exact List.cons_ne_nil _ _

end

theorem Exact.spellsItself {json : Json} (exact : json.Exact) : SpellsItself json := by
  induction exact with
  | null => exact fun rest _ => .null rfl
  | bool value =>
      cases value with
      | true => exact fun rest _ => .true rfl
      | false => exact fun rest _ => .false rfl
  | integer least greatest => exact spellsItself_integer least greatest
  | string text =>
      intro rest _
      rw [write, quoteChars_append]
      exact spells_quoted text rest
  | @array items _ ih =>
      intro rest _
      have written : (Json.array items true).write ++ rest =
          '[' :: (writeItems items ++ ']' :: rest) := by simp [write]
      rw [written]
      by_cases empty : items = []
      · subst empty
        exact .emptyArray rfl rfl
      · exact .array rfl (spellsItems_write empty ih)
  | @object members _ ih =>
      intro rest _
      have written : (Json.object members true).write ++ rest =
          '\x7b' :: (writeMembers members ++ '\x7d' :: rest) := by simp [write]
      rw [written]
      by_cases empty : members = []
      · subst empty
        exact .emptyObject rfl rfl
      · rw [← objectOf_withName]
        exact .object rfl (spellsMembers_write empty ih)

section

variable {json : Json}

theorem Exact.spelledBy (exact : json.Exact) :
    SpelledBy (json.cut nestingLimit) json.text.toList := by
  have spelled := exact.spellsItself [] endsNumeral_nil
  rw [List.append_nil] at spelled
  exact ⟨json, [], by rwa [text, String.toList_ofList], rfl, rfl⟩

theorem readDocument_text (exact : json.Exact) :
    readDocument json.text.toList = ⟨json.cut nestingLimit, true⟩ :=
  readDocument_eq_iff.mpr exact.spelledBy

end

end WireSchema.Json
