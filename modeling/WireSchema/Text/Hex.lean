namespace WireSchema.Text

/-! Hexadecimal numerals.  They are written in lower case and with a fixed width, and read in
either case. -/

/-- The last `width` hexadecimal digits of `value`, padded with zeros on the left. -/
def hexDigits : (width value : Nat) → List Char
  | 0, _ => []
  | width + 1, value => hexDigits width (value / 16) ++ [Nat.digitChar (value % 16)]

def hexDigit? (c : Char) : Option Nat :=
  if c.isDigit then some (c.toNat - '0'.toNat)
  else if 'a' ≤ c ∧ c ≤ 'f' then some (c.toNat - 'a'.toNat + 10)
  else if 'A' ≤ c ∧ c ≤ 'F' then some (c.toNat - 'A'.toNat + 10)
  else none

/-- The value of a numeral, unless there is something else among its digits. -/
def hexValue? (digits : List Char) : Option Nat :=
  digits.foldlM (fun value c => (hexDigit? c).map (value * 16 + ·)) 0

theorem length_hexDigits (width value : Nat) : (hexDigits width value).length = width := by
  induction width generalizing value with
  | zero => rfl
  | succ width inductionHypothesis => simp [hexDigits, inductionHypothesis]

theorem hexValue?_hexDigits {width value : Nat} (fits : value < Nat.pow 16 width) :
    hexValue? (hexDigits width value) = some value := by
  induction width generalizing value with
  | zero =>
      have zero : value = 0 := by simpa using fits
      rw [zero]
      rfl
  | succ width ih =>
      have digits : ∀ digit < 16, hexDigit? (Nat.digitChar digit) = some digit := by decide
      have last := digits (value % 16) (Nat.mod_lt _ (by decide))
      have higher : hexValue? (hexDigits width (value / 16)) = some (value / 16) := by
        apply ih
        have grows : Nat.pow 16 (width + 1) = Nat.pow 16 width * 16 := rfl
        omega
      have whole : value / 16 * 16 + value % 16 = value := by omega
      rw [hexValue?] at higher ⊢
      simp [hexDigits, List.foldlM_append, higher, last, whole]

example : hexDigits 4 0x2028 = ['2', '0', '2', '8'] ∧ hexDigits 2 0xB = ['0', 'b'] ∧
    hexValue? ['0', 'B'] = some 0xB := by decide

end WireSchema.Text
