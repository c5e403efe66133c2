import WireSchema.Proofs.Text.Capital

namespace WireSchema.Text

/-! Letters whose capital takes a combining mark.

The upper case of a letter is one letter or several, with few exceptions: for a small letter
with marks that Unicode has no capital of, the bare capital is followed by the marks.  A mark is
no letter, so an identifier that begins with such a letter is none any more with a capital.
-/

/-- The code points that some interval holds, as the bits of one number. -/
def CodeRanges.bits (ranges : CodeRanges) : Nat :=
  ranges.foldr (fun range set => set ||| (2 ^ (range.2 + 1 - range.1) - 1) <<< range.1) 0

theorem CodeRanges.testBit_bits (ranges : CodeRanges) (code : Nat) :
    ranges.bits.testBit code = ranges.any fun range => range.1 ≤ code && code ≤ range.2 := by
  induction ranges with
  | nil => exact Nat.zero_testBit code
  | cons range rest ih =>
      have here : (decide (range.1 ≤ code) && decide (code - range.1 < range.2 + 1 - range.1)) =
          (decide (range.1 ≤ code) && decide (code ≤ range.2)) := by
        rw [Bool.eq_iff_iff]
        simp only [Bool.and_eq_true, decide_eq_true_eq]
        omega
      rw [bits, List.foldr_cons, Nat.testBit_or, Nat.testBit_shiftLeft, Nat.testBit_two_pow_sub_one,
        ← bits, ih, here, List.any_cons, Bool.or_comm]

/-- All letters. -/
def letterSet : Nat :=
  CodeRanges.bits ((0x41, 0x5A) :: (0x61, 0x7A) :: (letterRanges ++ supplementaryLetterRanges))

/-- The letters with a combining mark in their upper case, by code point. -/
def markedCapitals : List Nat :=
  [ 0x1F0, 0x390, 0x3B0, 0x1E96, 0x1E97, 0x1E98, 0x1E99, 0x1F50, 0x1F52, 0x1F54, 0x1F56, 0x1FB6,
    0x1FB7, 0x1FC6, 0x1FC7, 0x1FD2, 0x1FD3, 0x1FD6, 0x1FD7, 0x1FE2, 0x1FE3, 0x1FE4, 0x1FE6,
    0x1FE7, 0x1FF6, 0x1FF7 ]

/-- What the tables of upper case say of letters.  All of it is checked in one go, since the set
of all letters is then computed only once. -/
theorem letterSet_tables :
    (∀ code < 0x80, isLetter (Char.ofNat code) = letterSet.testBit code ∧
      (letterSet.testBit code = true → (upper (Char.ofNat code)).all isLetter = true)) ∧
    (∀ run ∈ upperRuns, ∀ code ∈ run.codes, letterSet.testBit code = true →
      letterSet.testBit (Char.ofNat (code + run.shift).toNat).toNat = true) ∧
    (∀ entry ∈ upperSequences, entry.1 ∉ markedCapitals →
      ∀ code ∈ entry.2, letterSet.testBit (Char.ofNat code).toNat = true) ∧
    -- As a `Bool`, since deciding `∃ mark : Char` can mean to try every character there is.
    (∀ code ∈ markedCapitals, ((upper (Char.ofNat code)).any fun mark =>
      0x80 ≤ mark.toNat && !letterSet.testBit mark.toNat) = true) := by
  decide +kernel

theorem isLetter_eq_testBit (c : Char) : isLetter c = letterSet.testBit c.toNat := by
  by_cases small : c.toNat < 0x80
  · have ascii := (letterSet_tables.1 c.toNat small).1
    rwa [c.ofNat_toNat] at ascii
  · have upperCase : (decide (0x41 ≤ c.toNat) && decide (c.toNat ≤ 0x5A)) = false := by
      simp only [Bool.and_eq_false_iff, decide_eq_false_iff_not]
      omega
    have lowerCase : (decide (0x61 ≤ c.toNat) && decide (c.toNat ≤ 0x7A)) = false := by
      simp only [Bool.and_eq_false_iff, decide_eq_false_iff_not]
      omega
    rw [isLetter, if_neg small, letterSet, CodeRanges.testBit_bits, List.any_cons, List.any_cons,
      upperCase, lowerCase, Bool.false_or, Bool.false_or, List.any_append]
    rfl

theorem isLetter_of_mem_upper {c part : Char} (letter : isLetter c = true)
    (unmarked : c.toNat ∉ markedCapitals) (member : part ∈ upper c) : isLetter part = true := by
  obtain ⟨ascii, runs, sequences, _⟩ := letterSet_tables
  rw [isLetter_eq_testBit] at letter
  by_cases small : c.toNat < 0x80
  · have letters := (ascii c.toNat small).2 letter
    rw [c.ofNat_toNat] at letters
    exact List.all_eq_true.mp letters part member
  · rw [isLetter_eq_testBit]
    rcases upper_cases small with ⟨codes, entry, form⟩ | ⟨run, inTable, place, form⟩ | form
    · rw [form] at member
      obtain ⟨code, inside, rfl⟩ := List.mem_map.mp member
      exact sequences _ entry unmarked code inside
    · rw [form] at member
      rw [List.mem_singleton.mp member]
      exact runs run inTable _ place letter
    · rw [form] at member
      rw [List.mem_singleton.mp member]
      exact letter

theorem mark_mem_upper {c : Char} (marked : c.toNat ∈ markedCapitals) :
    ∃ mark ∈ upper c, continuesIdentifier [] mark = false := by
  obtain ⟨_, _, _, checked⟩ := letterSet_tables
  have marks := checked _ marked
  rw [c.ofNat_toNat, List.any_eq_true] at marks
  obtain ⟨mark, member, apart⟩ := marks
  rw [← isLetter_eq_testBit, Bool.and_eq_true, decide_eq_true_eq, Bool.not_eq_true'] at apart
  obtain ⟨large, noLetter⟩ := apart
  refine ⟨mark, member, ?_⟩
  rw [Bool.eq_false_iff]
  intro continues
  simp only [continuesIdentifier, opensIdentifier, noLetter, List.contains_nil, Bool.false_or,
    Bool.or_false, Bool.or_eq_true, beq_iff_eq] at continues
  rcases continues with rfl | digit
  · exact absurd large (by decide)
  · have range := range_of_isAlphanum (isAlphanum_of_isDigit digit)
    omega

/-- The name begins with a letter that has a combining mark in its upper case. -/
def BeginsMarked (name : String) : Prop :=
  ∃ first ∈ name.toList.head?, first.toNat ∈ markedCapitals

instance (name : String) : Decidable (BeginsMarked name) :=
  decidable_of_iff (name.toList.head?.any (·.toNat ∈ markedCapitals) = true)
    (by simp [BeginsMarked, Option.any_eq_true])

theorem upper_underscore : upper '_' = ['_'] := by decide

section

variable {name : String} {first : Char}

theorem toList_capitalize_cons {rest : List Char} (spelled : name.toList = first :: rest) :
    (capitalize name).toList = upper first ++ rest := by
  rw [toList_capitalize, spelled, capitalizeChars]

theorem upper_opens (opens : opensIdentifier [] first = true)
    (unmarked : first.toNat ∉ markedCapitals) :
    (∀ part ∈ upper first, isLetter part = true) ∨ (first = '_' ∧ upper first = ['_']) := by
  rcases opensIdentifier_iff.mp opens with letter | rfl
  · exact .inl fun part => isLetter_of_mem_upper letter unmarked
  · exact .inr ⟨rfl, upper_underscore⟩

/-- An identifier stays one in upper case unless its first letter takes a mark. -/
theorem isIdentifier_capitalize_iff (identifier : isIdentifier [] name = true) :
    isIdentifier [] (capitalize name) = true ↔ ¬ BeginsMarked name := by
  obtain ⟨first, rest, spelled, opens, continues⟩ := isIdentifier_iff.mp identifier
  have begins : name.toList.head? = some first := by rw [spelled, List.head?_cons]
  have form := toList_capitalize_cons spelled
  constructor
  · rintro stays ⟨other, otherBegins, marked⟩
    obtain rfl : first = other := Option.some.inj (begins.symm.trans otherBegins)
    obtain ⟨mark, member, foreign⟩ := mark_mem_upper marked
    have inside := continues_of_mem_identifier stays mark (form ▸ List.mem_append_left _ member)
    exact absurd inside (by rw [foreign]; decide)
  · intro unmarked
    have plain : first.toNat ∉ markedCapitals := fun marked => unmarked ⟨first, begins, marked⟩
    have parts : ∀ part ∈ upper first, opensIdentifier [] part = true := by
      intro part member
      rw [opensIdentifier_iff]
      rcases upper_opens opens plain with letters | ⟨rfl, same⟩
      · exact .inl (letters part member)
      · rw [same] at member
        exact .inr (List.mem_singleton.mp member)
    obtain ⟨front, more, upperForm, _⟩ := upper_front first
    rw [upperForm] at parts form
    refine isIdentifier_iff.mpr ⟨front, more ++ rest, form, parts front List.mem_cons_self, ?_⟩
    intro c member
    rcases List.mem_append.mp member with part | later
    · exact continuesIdentifier_of_opens (parts c (List.mem_cons_of_mem _ part))
    · exact continues c later

theorem capitalize_ne_underscore (identifier : isIdentifier [] name = true)
    (unmarked : ¬ BeginsMarked name) (different : name ≠ "_") : capitalize name ≠ "_" := by
  intro same
  obtain ⟨first, rest, spelled, opens, _⟩ := isIdentifier_iff.mp identifier
  have form : upper first ++ rest = ['_'] := by
    rw [← toList_capitalize_cons spelled, same]
    rfl
  have plain : first.toNat ∉ markedCapitals := fun marked =>
    unmarked ⟨first, by simp [spelled], marked⟩
  rcases upper_opens opens plain with letters | ⟨rfl, bare⟩
  · obtain ⟨front, more, upperForm, _⟩ := upper_front first
    rw [upperForm, List.cons_append, List.cons.injEq] at form
    have letter := letters front (upperForm ▸ List.mem_cons_self)
    rw [form.1] at letter
    exact absurd letter (by decide)
  · rw [bare, List.cons_append, List.nil_append, List.cons.injEq] at form
    rw [form.2] at spelled
    exact different (String.toList_inj.mp spelled)

end

end WireSchema.Text
