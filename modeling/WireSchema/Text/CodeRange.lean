namespace WireSchema.Text

/-! Sets of characters given by intervals of code points. -/

/-- Closed intervals of code points, in ascending order. -/
abbrev CodeRanges := List (Nat × Nat)

def CodeRanges.covers (ranges : CodeRanges) (c : Char) : Bool :=
  ranges.any fun range => range.1 ≤ c.toNat && c.toNat ≤ range.2

theorem CodeRanges.covers_iff (ranges : CodeRanges) (c : Char) :
    ranges.covers c = true ↔
      ∃ range ∈ ranges, range.1 ≤ c.toNat ∧ c.toNat ≤ range.2 := by
  simp [covers, List.any_eq_true]

end WireSchema.Text
