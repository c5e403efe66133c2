import WireSchema.Proofs.Number.Canonical
import WireSchema.TypeScript.Lexis

namespace WireSchema.TypeScript

/-! The names that an enum member cannot have.

Apart from the names of three special numbers they are numerals, of the form
`-?(0|[1-9][0-9]*)(\.[0-9]*[1-9])?`.  Up to fifteen digits every whole number of this form is one.
-/

open Number (IsNumeral IsSign IsWhole)

/-- The numbers that are not written in digits. -/
def specialNumbers : List String := ["NaN", "Infinity", "-Infinity"]

theorem isNumericName_iff {name : String} :
    isNumericName name = true ↔
      name ∈ specialNumbers ∨ Number.isCanonicalNumeral name.toList = true := by
  rw [isNumericName, Bool.or_eq_true, List.contains_iff_mem, specialNumbers]

theorem not_mem_specialNumbers {name : String} {sign digits : List Char} (isSign : IsSign sign)
    (isDigit : ∀ c ∈ digits, c.isDigit = true) (form : name.toList = sign ++ digits) :
    name ∉ specialNumbers := by
  have letter : ∀ special ∈ specialNumbers,
      special.toList.any (fun c => !c.isDigit && c != '-') = true := by
    decide
  intro special
  obtain ⟨c, member, isLetter⟩ := List.any_eq_true.mp (letter name special)
  simp only [Bool.and_eq_true, Bool.not_eq_true', bne_iff_ne] at isLetter
  obtain ⟨noDigit, noMinus⟩ := isLetter
  rw [form, List.mem_append] at member
  cases member with
  | inl inSign =>
      cases isSign with
      | inl unsigned => simp [unsigned] at inSign
      | inr minus => exact noMinus (by simpa [minus] using inSign)
  | inr inDigits => exact absurd (isDigit c inDigits) (by simp [noDigit])

/-- A numeric name is a special number or spelled without needless characters, and digits with or
without a minus are numeric, up to fifteen of them, exactly if no zero stands in front of others. -/
theorem isNumericName_spelling (name : String) :
    (name ∉ specialNumbers → isNumericName name = true → IsNumeral name.toList) ∧
      ∀ sign digits, IsSign sign → (∀ c ∈ digits, c.isDigit = true) → 1 ≤ digits.length →
        digits.length ≤ 15 → name.toList = sign ++ digits →
        (isNumericName name = true ↔ digits = ['0'] ∨ digits.head? ≠ some '0') := by
  refine ⟨fun ordinary numeric => ?_, fun sign digits isSign isDigit long short form => ?_⟩
  · have canonical := (isNumericName_iff.mp numeric).resolve_left ordinary
    exact Number.isNumeral_of_isCanonicalNumeral canonical
  · have ordinary := not_mem_specialNumbers isSign isDigit form
    have nonempty := List.ne_nil_of_length_pos long
    calc isNumericName name = true
        ↔ Number.isCanonicalNumeral (sign ++ digits) = true := by
          rw [isNumericName_iff, form, or_iff_right ordinary]
      _ ↔ IsWhole digits := Number.isCanonicalNumeral_digits_iff isSign isDigit nonempty short
      _ ↔ digits = ['0'] ∨ digits.head? ≠ some '0' := Number.isWhole_iff nonempty isDigit

/-- A fraction is numeric, and so are fifteen nines, but not two zeros in front of a seven. -/
theorem numericNames_spelled :
    ("-12.5" ∉ specialNumbers ∧ isNumericName "-12.5" = true ∧ IsNumeral "-12.5".toList) ∧
      isNumericName "999999999999999" = true ∧ isNumericName "-007" = false := by
  have numeric : isNumericName "-12.5" = true := by decide +kernel
  have nines := (isNumericName_spelling "999999999999999").2 [] (List.replicate 15 '9') (.inl rfl)
    (by simp) (by decide) (by decide) (by decide)
  have zeros := (isNumericName_spelling "-007").2 ['-'] ['0', '0', '7'] (.inr rfl)
    (by simp) (by decide) (by decide) (by decide)
  refine ⟨⟨by decide, numeric, (isNumericName_spelling "-12.5").1 (by decide) numeric⟩, ?_, ?_⟩
  · exact nines.mpr (by decide)
  · exact Bool.not_eq_true _ ▸ zeros.not.mpr (by decide)

end WireSchema.TypeScript
