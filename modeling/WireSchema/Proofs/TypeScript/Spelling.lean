import WireSchema.Proofs.TypeScript.Scope

namespace WireSchema.TypeScript

/-! The written form of a type, and that no two types share one.

A member that is no array is a word.  An array puts brackets behind its element, and around an
element of several members it puts parentheses, so that the brackets belong to all of them.  A
text is read from the left: a word or a group in parentheses, then as many brackets as there
are, and then either a bar with further members or something that cannot go on a type.
-/

/-- How a type is written: its members with bars between them. -/
inductive Spells : TypeExpr → List Char → Prop where
  | builtin (type : Builtin) : Spells [.builtin type] type.text.toList
  | declared {name : String} : isTypeIdentifier name = true →
      Spells [.declared name] name.toList
  | single {member : Member} {text : List Char} : Spells [member] text →
      Spells [.array [member]] (text ++ "[]".toList)
  | several {first second : Member} {rest : TypeExpr} {text : List Char} :
      Spells (first :: second :: rest) text →
      Spells [.array (first :: second :: rest)] ("(".toList ++ text ++ ")[]".toList)
  | more {member next : Member} {rest : TypeExpr} {text others : List Char} :
      Spells [member] text → Spells (next :: rest) others →
      Spells (member :: next :: rest) (text ++ " | ".toList ++ others)

inductive IsWord : Member → List Char → Prop where
  | builtin (type : Builtin) : IsWord (.builtin type) type.text.toList
  | declared {name : String} : isTypeIdentifier name = true → IsWord (.declared name) name.toList

/-- A member without the brackets behind it. -/
inductive Stem : Member → List Char → Prop where
  | word {member : Member} {text : List Char} : IsWord member text → Stem member text
  | group {first second : Member} {rest : TypeExpr} {text : List Char} :
      Spells (first :: second :: rest) text →
      Stem (.array (first :: second :: rest)) ('(' :: (text ++ [')', '[', ']']))

def brackets : Nat → List Char
  | 0 => []
  | depth + 1 => '[' :: ']' :: brackets depth

def nested : Nat → Member → Member
  | 0, member => member
  | depth + 1, member => .array [nested depth member]

theorem brackets_snoc (depth : Nat) : brackets (depth + 1) = brackets depth ++ ['[', ']'] := by
  induction depth with
  | zero => rfl
  | succ depth ih =>
      change '[' :: ']' :: brackets (depth + 1) = '[' :: ']' :: (brackets depth ++ ['[', ']'])
      rw [ih]

theorem Spells.stem {member : Member} {text : List Char} (spelled : Spells [member] text) :
    ∃ depth base stem, Stem base stem ∧ member = nested depth base ∧
      text = stem ++ brackets depth := by
  generalize form : [member] = type at spelled
  induction spelled generalizing member with
  | builtin type =>
      cases form
      exact ⟨0, _, _, .word (.builtin type), rfl, (List.append_nil _).symm⟩
  | declared accepted =>
      cases form
      exact ⟨0, _, _, .word (.declared accepted), rfl, (List.append_nil _).symm⟩
  | single _ ih =>
      cases form
      obtain ⟨depth, base, stem, stemmed, rfl, rfl⟩ := ih rfl
      exact ⟨depth + 1, base, stem, stemmed, rfl, by simp [brackets_snoc]⟩
  | several inner _ =>
      cases form
      exact ⟨0, _, _, .group inner, rfl, by simp [brackets]⟩
  | more _ _ _ _ => cases form

/-- What follows the first member of a type. -/
inductive Continues : TypeExpr → List Char → Prop where
  | nil : Continues [] []
  | more {next : Member} {rest : TypeExpr} {others : List Char} : Spells (next :: rest) others →
      Continues (next :: rest) (' ' :: '|' :: ' ' :: others)

theorem Spells.first {type : TypeExpr} {text : List Char} (spelled : Spells type text) :
    ∃ member rest head tail, type = member :: rest ∧ Spells [member] head ∧
      Continues rest tail ∧ text = head ++ tail := by
  cases spelled with
  | builtin type => exact ⟨_, [], _, [], rfl, .builtin type, .nil, (List.append_nil _).symm⟩
  | declared accepted =>
      exact ⟨_, [], _, [], rfl, .declared accepted, .nil, (List.append_nil _).symm⟩
  | single inner => exact ⟨_, [], _, [], rfl, .single inner, .nil, (List.append_nil _).symm⟩
  | several inner => exact ⟨_, [], _, [], rfl, .several inner, .nil, (List.append_nil _).symm⟩
  | more member others => exact ⟨_, _, _, _, rfl, member, .more others, by simp⟩

/-- The text cannot go on a word. -/
def StopsWord (after : List Char) : Prop := ∀ c ∈ after.head?, inName c = false

/-- The text cannot go on a type. -/
def StopsType (after : List Char) : Prop :=
  ∀ c ∈ after.head?, inName c = false ∧ c ≠ '[' ∧ c ≠ ' '

theorem IsWord.run {member : Member} {text : List Char} (word : IsWord member text) :
    text ≠ [] ∧ ∀ c ∈ text, inName c = true := by
  cases word with
  | builtin type =>
      cases type <;> exact ⟨by decide, List.all_eq_true.mp (by decide)⟩
  | declared accepted =>
      have identifier := isIdentifierName_of_type accepted
      exact ⟨Text.ne_empty_of_identifier identifier, Text.continues_of_mem_identifier identifier⟩

theorem Builtin.text_injective {left right : Builtin} (same : left.text = right.text) :
    left = right := by
  have distinct : ([.string, .number, .boolean, .any, .null].map Builtin.text).Nodup := by decide
  exact List.inj_on_of_nodup_map distinct (by cases left <;> decide) (by cases right <;> decide)
    same

theorem Builtin.not_isTypeIdentifier (type : Builtin) : isTypeIdentifier type.text = false :=
  not_isTypeIdentifier_builtin (by cases type <;> decide)

/-- The builtin words are reserved, so a word has one meaning. -/
theorem IsWord.unique {left right : Member} {text : List Char} (leftWord : IsWord left text)
    (rightWord : IsWord right text) : left = right := by
  generalize form : text = other at rightWord
  cases leftWord with
  | builtin type =>
      cases rightWord with
      | builtin other => rw [Builtin.text_injective (String.toList_inj.mp form)]
      | declared accepted =>
          rw [← String.toList_inj.mp form, type.not_isTypeIdentifier] at accepted
          cases accepted
  | declared accepted =>
      cases rightWord with
      | builtin type =>
          rw [String.toList_inj.mp form, type.not_isTypeIdentifier] at accepted
          cases accepted
      | declared _ => rw [String.toList_inj.mp form]

theorem brackets_unique {depth other : Nat} {after following : List Char}
    (stops : ∀ c ∈ after.head?, c ≠ '[') (otherStops : ∀ c ∈ following.head?, c ≠ '[')
    (same : brackets depth ++ after = brackets other ++ following) :
    depth = other ∧ after = following := by
  induction depth generalizing other with
  | zero =>
      cases other with
      | zero => exact ⟨rfl, same⟩
      | succ other =>
          have first := congrArg List.head? same
          exact absurd rfl (stops '[' first)
  | succ depth ih =>
      cases other with
      | zero =>
          have first := congrArg List.head? same
          exact absurd rfl (otherStops '[' first.symm)
      | succ other =>
          obtain ⟨depths, rests⟩ := ih (List.cons.inj (List.cons.inj same).2).2
          exact ⟨by rw [depths], rests⟩

/-- Texts shorter than `bound` are written for one type only, whatever follows them. -/
def UniqueBelow (bound : Nat) : Prop :=
  ∀ ⦃left right : TypeExpr⦄ ⦃text other after following : List Char⦄, text.length < bound →
    Spells left text → Spells right other → StopsType after → StopsType following →
    text ++ after = other ++ following → left = right ∧ after = following

section

variable {left right : Member} {text other after following : List Char}

theorem Stem.unique (shorter : UniqueBelow text.length) (leftStem : Stem left text)
    (rightStem : Stem right other) (stops : StopsWord after) (otherStops : StopsWord following)
    (same : text ++ after = other ++ following) : left = right ∧ after = following := by
  have opens : inName '(' = false := by decide
  have closes (rest : List Char) : StopsType (')' :: rest) := by
    intro c first
    cases first
    decide
  cases leftStem with
  | word leftWord =>
      cases rightStem with
      | word rightWord =>
          obtain ⟨words, rests⟩ := Text.append_inj_of_runs leftWord.run.2 rightWord.run.2
            stops otherStops same
          subst words
          exact ⟨leftWord.unique rightWord, rests⟩
      | group _ =>
          obtain ⟨nonempty, run⟩ := leftWord.run
          obtain ⟨first, rest, rfl⟩ := List.exists_cons_of_ne_nil nonempty
          have named := run first List.mem_cons_self
          rw [(List.cons.inj same).1, opens] at named
          cases named
  | group leftInner =>
      cases rightStem with
      | word rightWord =>
          obtain ⟨nonempty, run⟩ := rightWord.run
          obtain ⟨first, rest, rfl⟩ := List.exists_cons_of_ne_nil nonempty
          have named := run first List.mem_cons_self
          rw [← (List.cons.inj same).1, opens] at named
          cases named
      | group rightInner =>
          simp only [List.cons_append, List.append_assoc, List.cons.injEq, true_and] at same
          have smaller (text : List Char) :
              text.length < ('(' :: (text ++ [')', '[', ']'])).length := by
            simp only [List.length_cons, List.length_append]
            omega
          obtain ⟨elements, rests⟩ := shorter (smaller _) leftInner rightInner (closes _) (closes _)
            same
          rw [elements]
          exact ⟨rfl, by simpa using rests⟩

end

section

variable {left right : TypeExpr} {text other after following : List Char}

theorem Continues.unique {bound : Nat} (shorter : UniqueBelow bound) (fits : text.length ≤ bound)
    (leftRest : Continues left text) (rightRest : Continues right other)
    (stops : StopsType after) (otherStops : StopsType following)
    (same : text ++ after = other ++ following) : left = right ∧ after = following := by
  cases leftRest with
  | nil =>
      cases rightRest with
      | nil => exact ⟨rfl, same⟩
      | more _ => exact absurd rfl (stops ' ' (congrArg List.head? same)).2.2
  | more leftOthers =>
      cases rightRest with
      | nil => exact absurd rfl (otherStops ' ' (congrArg List.head? same).symm).2.2
      | more rightOthers =>
          have others := (List.cons.inj (List.cons.inj (List.cons.inj same).2).2).2
          simp only [List.length_cons] at fits
          exact shorter (by omega) leftOthers rightOthers stops otherStops others

theorem Continues.stops {c : Char} (continues : Continues left text) (stops : StopsType after)
    (first : c ∈ (text ++ after).head?) : inName c = false ∧ c ≠ '[' := by
  cases continues with
  | nil => exact ⟨(stops c first).1, (stops c first).2.1⟩
  | more _ =>
      cases first
      decide

theorem stopsWord_brackets {depth : Nat} (stops : ∀ c ∈ after.head?, inName c = false) :
    StopsWord (brackets depth ++ after) := by
  cases depth with
  | zero => exact stops
  | succ depth =>
      intro c first
      cases first
      decide

theorem Spells.unique_of_shorter (shorter : UniqueBelow text.length)
    (leftSpelled : Spells left text) (rightSpelled : Spells right other)
    (stops : StopsType after) (otherStops : StopsType following)
    (same : text ++ after = other ++ following) : left = right ∧ after = following := by
  obtain ⟨member, rest, head, tail, rfl, headSpelled, continues, rfl⟩ := leftSpelled.first
  obtain ⟨member', rest', head', tail', rfl, headSpelled', continues', rfl⟩ := rightSpelled.first
  obtain ⟨depth, base, stem, stemmed, rfl, rfl⟩ := headSpelled.stem
  obtain ⟨depth', base', stem', stemmed', rfl, rfl⟩ := headSpelled'.stem
  simp only [List.append_assoc] at same
  have shorterStem : UniqueBelow stem.length := by
    intro _ _ _ _ _ _ small
    exact shorter (by simp only [List.length_append]; omega)
  obtain ⟨bases, behind⟩ := stemmed.unique shorterStem stemmed'
    (stopsWord_brackets fun c first => (continues.stops stops first).1)
    (stopsWord_brackets fun c first => (continues'.stops otherStops first).1) same
  obtain ⟨depths, tails⟩ := brackets_unique (fun c first => (continues.stops stops first).2)
    (fun c first => (continues'.stops otherStops first).2) behind
  obtain ⟨rests, ends⟩ := continues.unique shorter (by simp only [List.length_append]; omega)
    continues' stops otherStops tails
  rw [bases, depths, rests]
  exact ⟨rfl, ends⟩

theorem uniqueBelow (bound : Nat) : UniqueBelow bound := by
  induction bound with
  | zero => exact fun _ _ _ _ _ _ small => absurd small (Nat.not_lt_zero _)
  | succ bound ih =>
      intro left right text other after following small leftSpelled rightSpelled
      have shorter : UniqueBelow text.length := by
        intro _ _ _ _ _ _ smaller
        exact ih (by omega)
      exact leftSpelled.unique_of_shorter shorter rightSpelled

/-- A text is the written form of one type at most. -/
theorem Spells.unique (leftSpelled : Spells left text) (rightSpelled : Spells right text) :
    left = right := by
  have stops : StopsType [] := by
    intro c first
    cases first
  exact (uniqueBelow (text.length + 1) (Nat.lt_succ_self _) leftSpelled rightSpelled stops stops
    rfl).1

end

end WireSchema.TypeScript
