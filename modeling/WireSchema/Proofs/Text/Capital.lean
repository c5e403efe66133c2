import Mathlib.Algebra.Ring.Nat
import Mathlib.Data.List.Basic
import WireSchema.Proofs.Text.Plain

namespace WireSchema.Text

/-! Capital letters, and what upper-casing makes of a first character.

The table holds the letters that Unicode classes as upper case.  Many scripts have no capitals,
and circled letters look like capitals and are none.  Upper-casing leaves every capital as it is,
and what it puts first is never a character that it would change again.
-/

/-- Every `step`-th code point of an interval, as the first, the last and the step. -/
def capitalRuns : List (Nat × Nat × Nat) :=
  [ (0x41, 0x5A, 1), (0xC0, 0xD6, 1), (0xD8, 0xDE, 1), (0x100, 0x136, 2), (0x139, 0x147, 2),
    (0x14A, 0x178, 2), (0x179, 0x17D, 2), (0x181, 0x182, 1), (0x184, 0x186, 2), (0x187, 0x189, 2),
    (0x18A, 0x18B, 1), (0x18E, 0x191, 1), (0x193, 0x194, 1), (0x196, 0x198, 1), (0x19C, 0x19D, 1),
    (0x19F, 0x1A0, 1), (0x1A2, 0x1A6, 2), (0x1A7, 0x1A9, 2), (0x1AC, 0x1AE, 2), (0x1AF, 0x1B1, 2),
    (0x1B2, 0x1B3, 1), (0x1B5, 0x1B7, 2), (0x1B8, 0x1B8, 1), (0x1BC, 0x1BC, 1), (0x1C4, 0x1C4, 1),
    (0x1C7, 0x1C7, 1), (0x1CA, 0x1CA, 1), (0x1CD, 0x1DB, 2), (0x1DE, 0x1EE, 2), (0x1F1, 0x1F1, 1),
    (0x1F4, 0x1F6, 2), (0x1F7, 0x1F8, 1), (0x1FA, 0x232, 2), (0x23A, 0x23B, 1), (0x23D, 0x23E, 1),
    (0x241, 0x243, 2), (0x244, 0x246, 1), (0x248, 0x24E, 2), (0x370, 0x372, 2), (0x376, 0x376, 1),
    (0x37F, 0x37F, 1), (0x386, 0x388, 2), (0x389, 0x38A, 1), (0x38C, 0x38E, 2), (0x38F, 0x391, 2),
    (0x392, 0x3A1, 1), (0x3A3, 0x3AB, 1), (0x3CF, 0x3CF, 1), (0x3D2, 0x3D4, 1), (0x3D8, 0x3EE, 2),
    (0x3F4, 0x3F4, 1), (0x3F7, 0x3F9, 2), (0x3FA, 0x3FA, 1), (0x3FD, 0x42F, 1), (0x460, 0x480, 2),
    (0x48A, 0x4C0, 2), (0x4C1, 0x4CD, 2), (0x4D0, 0x52E, 2), (0x531, 0x556, 1), (0x10A0, 0x10C5, 1),
    (0x10C7, 0x10C7, 1), (0x10CD, 0x10CD, 1), (0x13A0, 0x13F5, 1), (0x1C89, 0x1C89, 1),
    (0x1C90, 0x1CBA, 1), (0x1CBD, 0x1CBF, 1), (0x1E00, 0x1E94, 2), (0x1E9E, 0x1EFE, 2),
    (0x1F08, 0x1F0F, 1), (0x1F18, 0x1F1D, 1), (0x1F28, 0x1F2F, 1), (0x1F38, 0x1F3F, 1),
    (0x1F48, 0x1F4D, 1), (0x1F59, 0x1F5F, 2), (0x1F68, 0x1F6F, 1), (0x1FB8, 0x1FBB, 1),
    (0x1FC8, 0x1FCB, 1), (0x1FD8, 0x1FDB, 1), (0x1FE8, 0x1FEC, 1), (0x1FF8, 0x1FFB, 1),
    (0x2102, 0x2102, 1), (0x2107, 0x2107, 1), (0x210B, 0x210D, 1), (0x2110, 0x2112, 1),
    (0x2115, 0x2115, 1), (0x2119, 0x211D, 1), (0x2124, 0x212A, 2), (0x212B, 0x212D, 1),
    (0x2130, 0x2133, 1), (0x213E, 0x213F, 1), (0x2145, 0x2145, 1), (0x2183, 0x2183, 1),
    (0x2C00, 0x2C2F, 1), (0x2C60, 0x2C62, 2), (0x2C63, 0x2C64, 1), (0x2C67, 0x2C6D, 2),
    (0x2C6E, 0x2C70, 1), (0x2C72, 0x2C72, 1), (0x2C75, 0x2C75, 1), (0x2C7E, 0x2C80, 1),
    (0x2C82, 0x2CE2, 2), (0x2CEB, 0x2CED, 2), (0x2CF2, 0x2CF2, 1), (0xA640, 0xA66C, 2),
    (0xA680, 0xA69A, 2), (0xA722, 0xA72E, 2), (0xA732, 0xA76E, 2), (0xA779, 0xA77D, 2),
    (0xA77E, 0xA786, 2), (0xA78B, 0xA78D, 2), (0xA790, 0xA792, 2), (0xA796, 0xA7AA, 2),
    (0xA7AB, 0xA7AE, 1), (0xA7B0, 0xA7B4, 1), (0xA7B6, 0xA7C4, 2), (0xA7C5, 0xA7C7, 1),
    (0xA7C9, 0xA7CB, 2), (0xA7CC, 0xA7DC, 2), (0xA7F5, 0xA7F5, 1), (0xFF21, 0xFF3A, 1),
    (0x10400, 0x10427, 1), (0x104B0, 0x104D3, 1), (0x10570, 0x1057A, 1), (0x1057C, 0x1058A, 1),
    (0x1058C, 0x10592, 1), (0x10594, 0x10595, 1), (0x10C80, 0x10CB2, 1), (0x10D50, 0x10D65, 1),
    (0x118A0, 0x118BF, 1), (0x16E40, 0x16E5F, 1), (0x16EA0, 0x16EB8, 1), (0x1D400, 0x1D419, 1),
    (0x1D434, 0x1D44D, 1), (0x1D468, 0x1D481, 1), (0x1D49C, 0x1D49E, 2), (0x1D49F, 0x1D49F, 1),
    (0x1D4A2, 0x1D4A2, 1), (0x1D4A5, 0x1D4A6, 1), (0x1D4A9, 0x1D4AC, 1), (0x1D4AE, 0x1D4B5, 1),
    (0x1D4D0, 0x1D4E9, 1), (0x1D504, 0x1D505, 1), (0x1D507, 0x1D50A, 1), (0x1D50D, 0x1D514, 1),
    (0x1D516, 0x1D51C, 1), (0x1D538, 0x1D539, 1), (0x1D53B, 0x1D53E, 1), (0x1D540, 0x1D544, 1),
    (0x1D546, 0x1D546, 1), (0x1D54A, 0x1D550, 1), (0x1D56C, 0x1D585, 1), (0x1D5A0, 0x1D5B9, 1),
    (0x1D5D4, 0x1D5ED, 1), (0x1D608, 0x1D621, 1), (0x1D63C, 0x1D655, 1), (0x1D670, 0x1D689, 1),
    (0x1D6A8, 0x1D6C0, 1), (0x1D6E2, 0x1D6FA, 1), (0x1D71C, 0x1D734, 1), (0x1D756, 0x1D76E, 1),
    (0x1D790, 0x1D7A8, 1), (0x1D7CA, 0x1D7CA, 1), (0x1E900, 0x1E921, 1) ]

/-- Whether `c` is an upper-case letter. -/
def isCapital (c : Char) : Bool :=
  capitalRuns.any fun run =>
    run.1 ≤ c.toNat && c.toNat ≤ run.2.1 && (c.toNat - run.1) % run.2.2 == 0

example : isCapital 'Ω' = true ∧ isCapital 'Ⓐ' = false ∧ isCapital 'ǅ' = false := by
  decide

/-- The upper case of `c` begins with a capital. -/
def HasCapital (c : Char) : Prop :=
  ∃ capital ∈ (upper c).head?, isCapital capital = true

instance (c : Char) : Decidable (HasCapital c) :=
  decidable_of_iff ((upper c).head?.any isCapital = true) (Option.any_eq_true _ _)

/-- A set of numbers as the bits of one number, so that two sets are compared at once. -/
def bitSet (codes : List Nat) : Nat := codes.foldr (fun code set => set ||| 2 ^ code) 0

theorem testBit_bitSet {codes : List Nat} {code : Nat} (member : code ∈ codes) :
    (bitSet codes).testBit code = true := by
  induction codes with
  | nil => cases member
  | cons first rest ih =>
      rw [bitSet, List.foldr_cons, Nat.testBit_or, Bool.or_eq_true]
      rcases List.mem_cons.mp member with same | later
      · exact .inr (same ▸ Nat.testBit_two_pow_self)
      · exact .inl (ih later)

theorem disjoint_of_bitSet {left right : List Nat} (apart : bitSet left &&& bitSet right = 0) :
    left.Disjoint right := by
  intro code inLeft inRight
  have shared : (bitSet left &&& bitSet right).testBit code = true := by
    rw [Nat.testBit_and, testBit_bitSet inLeft, testBit_bitSet inRight, Bool.and_true]
  rw [apart, Nat.zero_testBit] at shared
  cases shared

def everyStep (first last step : Nat) : List Nat :=
  (List.range ((last - first) / step + 1)).map fun place => first + place * step

theorem mem_everyStep {first last step code : Nat} (low : first ≤ code) (high : code ≤ last)
    (onStep : (code - first) % step = 0) : code ∈ everyStep first last step := by
  have place : (code - first) / step * step = code - first :=
    Nat.div_mul_cancel (Nat.dvd_of_mod_eq_zero onStep)
  have within : (code - first) / step ≤ (last - first) / step :=
    Nat.div_le_div_right (Nat.sub_le_sub_right high first)
  exact List.mem_map.mpr ⟨_, List.mem_range.mpr (Nat.lt_succ_of_le within), by omega⟩

def capitalCodes : List Nat :=
  capitalRuns.flatMap fun run => everyStep run.1 run.2.1 run.2.2

def CaseRun.codes (run : CaseRun) : List Nat := everyStep run.first run.last run.step

/-- The code points that upper-casing changes. -/
def changedCodes : List Nat :=
  everyStep 0x61 0x7A 1 ++ upperSequences.map Prod.fst ++ upperRuns.flatMap CaseRun.codes

/-- The code points that the tables put first in the place of others.  A number that is no code
point stands for zero. -/
def frontCodes : List Nat :=
  0 :: upperSequences.filterMap (·.2.head?) ++
    upperRuns.flatMap fun run => run.codes.map fun code : Nat => (code + run.shift).toNat

theorem settledCodes_disjoint : (frontCodes ++ capitalCodes).Disjoint changedCodes :=
  disjoint_of_bitSet (by decide +kernel)

theorem of_small {motive : Char → Prop} (checked : ∀ code < 0x80, motive (Char.ofNat code)) {c : Char}
    (small : c.toNat < 0x80) : motive c :=
  c.ofNat_toNat ▸ checked c.toNat small

theorem CaseRun.mem_codes {run : CaseRun} {code : Nat} (covers : run.covers code = true) :
    code ∈ run.codes := by
  simp only [CaseRun.covers, Bool.and_eq_true, decide_eq_true_eq, beq_iff_eq] at covers
  exact mem_everyStep covers.1.1 covers.1.2 covers.2

/-- Beyond ASCII the tables decide, and a character that is in none of them stays. -/
theorem upper_cases {c : Char} (large : ¬ c.toNat < 0x80) :
    (∃ codes, (c.toNat, codes) ∈ upperSequences ∧ upper c = codes.map Char.ofNat) ∨
      (∃ run ∈ upperRuns, c.toNat ∈ run.codes ∧
        upper c = [Char.ofNat (c.toNat + run.shift).toNat]) ∨
      upper c = [c] := by
  rw [upper, if_neg large]
  split
  · rename_i codes sequence
    obtain ⟨before, after, form, _⟩ := List.lookup_eq_some_iff.mp sequence
    exact .inl ⟨codes, by simp [form], rfl⟩
  · split
    · rename_i run found
      have covers := List.find?_some found
      have place := CaseRun.mem_codes covers
      exact .inr (.inl ⟨run, List.mem_of_find?_eq_some found, place, rfl⟩)
    · exact .inr (.inr rfl)

theorem upper_of_large {c : Char} (large : ¬ c.toNat < 0x80) :
    upper c = [c] ∨ c.toNat ∈ changedCodes ∧
      ∃ front more, upper c = Char.ofNat front :: more ∧ front ∈ frontCodes := by
  rcases upper_cases large with ⟨codes, entry, form⟩ | ⟨run, member, place, form⟩ | stays
  · have filled : ∀ entry ∈ upperSequences, entry.2 ≠ [] := by decide
    obtain ⟨front, more, rfl⟩ := List.exists_cons_of_ne_nil (filled _ entry)
    refine .inr ⟨?_, front, more.map Char.ofNat, form, ?_⟩
    · exact List.mem_append_left _ (List.mem_append_right _ (List.mem_map_of_mem entry))
    · exact List.mem_append_left _
        (List.mem_cons_of_mem _ (List.mem_filterMap.mpr ⟨_, entry, rfl⟩))
  · refine .inr ⟨?_, (c.toNat + run.shift).toNat, [], form, ?_⟩
    · exact List.mem_append_right _ (List.mem_flatMap.mpr ⟨run, member, place⟩)
    · exact List.mem_append_right _
        (List.mem_flatMap.mpr ⟨run, member, List.mem_map.mpr ⟨_, place, rfl⟩⟩)
  · exact .inl stays

theorem upper_unchanged {c : Char} (unchanged : c.toNat ∉ changedCodes) : upper c = [c] := by
  by_cases small : c.toNat < 0x80
  · have stays : c.toNat ∉ everyStep 0x61 0x7A 1 → upper c = [c] :=
      of_small (motive := fun c => c.toNat ∉ everyStep 0x61 0x7A 1 → upper c = [c])
        (by decide +kernel) small
    exact stays fun lower => unchanged (List.mem_append_left _ (List.mem_append_left _ lower))
  · obtain stays | ⟨changed, _⟩ := upper_of_large small
    · exact stays
    · exact absurd changed unchanged

/-- What upper-casing puts first it would not change again. -/
theorem upper_front (c : Char) :
    ∃ front more, upper c = front :: more ∧ upper front = [front] := by
  by_cases small : c.toNat < 0x80
  · have single : upper c = [c.toUpper] := by rw [upper, if_pos small]
    have settled : upper c.toUpper = [c.toUpper] :=
      of_small (motive := fun c => upper c.toUpper = [c.toUpper]) (by decide) small
    exact ⟨_, [], single, settled⟩
  · obtain stays | ⟨_, code, more, form, isFront⟩ := upper_of_large small
    · exact ⟨c, [], stays, stays⟩
    · have known : (Char.ofNat code).toNat ∈ frontCodes := by
        by_cases valid : code.isValidChar
        · rw [Char.ofNat, dif_pos valid]
          exact isFront
        · rw [Char.ofNat, dif_neg valid]
          exact List.mem_append_left _ List.mem_cons_self
      exact ⟨_, more, form, upper_unchanged (settledCodes_disjoint (List.mem_append_left _ known))⟩

theorem head?_capitalize (name : String) :
    (capitalize name).toList.head? =
      name.toList.head?.bind fun first => (upper first).head? := by
  rw [toList_capitalize]
  cases name.toList with
  | nil => rfl
  | cons first rest =>
      obtain ⟨front, more, form, _⟩ := upper_front first
      simp [capitalizeChars, form]

/-- What begins the name in upper case would not be changed again. -/
theorem upper_of_capitalize_begins {name : String} {first : Char}
    (begins : first ∈ (capitalize name).toList.head?) : upper first = [first] := by
  rw [head?_capitalize, Option.mem_def, Option.bind_eq_some_iff] at begins
  obtain ⟨old, _, opening⟩ := begins
  obtain ⟨front, more, form, settled⟩ := upper_front old
  rw [form, List.head?_cons, Option.some.injEq] at opening
  exact opening ▸ settled

theorem upper_of_isCapital {c : Char} (capital : isCapital c = true) : upper c = [c] := by
  simp only [isCapital, List.any_eq_true, Bool.and_eq_true, decide_eq_true_eq, beq_iff_eq] at capital
  obtain ⟨run, member, ⟨low, high⟩, onStep⟩ := capital
  have listed : c.toNat ∈ capitalCodes :=
    List.mem_flatMap.mpr ⟨run, member, mem_everyStep low high onStep⟩
  exact upper_unchanged (settledCodes_disjoint (List.mem_append_right _ listed))

theorem hasCapital_of_isCapital {c : Char} (capital : isCapital c = true) : HasCapital c :=
  ⟨c, by simp [upper_of_isCapital capital], capital⟩

theorem hasCapital_of_isAlpha {c : Char} (letter : c.isAlpha = true) : HasCapital c := by
  have range := range_of_isAlphanum (c := c) (by simp [Char.isAlphanum, letter])
  exact of_small (motive := fun c => c.isAlpha = true → HasCapital c) (by decide +kernel)
    (by omega) letter

end WireSchema.Text
