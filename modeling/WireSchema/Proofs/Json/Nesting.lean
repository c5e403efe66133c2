import WireSchema.Json.Reader

namespace WireSchema.Json

/-! How deep arrays and objects nest, and what is left of a tree that is cut.

A tree cut at a depth nests no deeper.  Nothing is lost by that as long as the tree did not nest
deeper before, and otherwise the tree is not whole any more.
-/

mutual
/-- The levels of arrays and objects around the innermost value. -/
def nesting : Json → Nat
  | .array items _ => 1 + nestingItems items
  | .object members _ => 1 + nestingMembers members
  | .null | .bool _ | .number _ | .string _ | .broken => 0

def nestingItems : List Json → Nat
  | [] => 0
  | item :: rest => max item.nesting (nestingItems rest)

def nestingMembers : List (String × Json) → Nat
  | [] => 0
  | (_, value) :: rest => max value.nesting (nestingMembers rest)
end

theorem nestingItems_le_iff {items : List Json} {depth : Nat} :
    nestingItems items ≤ depth ↔ ∀ item ∈ items, item.nesting ≤ depth := by
  induction items with
  | nil => simp [nestingItems]
  | cons item rest ih => rw [nestingItems, Nat.max_le, ih, List.forall_mem_cons]

theorem nestingMembers_le_iff {members : List (String × Json)} {depth : Nat} :
    nestingMembers members ≤ depth ↔ ∀ member ∈ members, member.2.nesting ≤ depth := by
  induction members with
  | nil => simp [nestingMembers]
  | cons member rest ih => rw [nestingMembers, Nat.max_le, ih, List.forall_mem_cons]

@[simp] theorem nesting_number (value : JsonNumber) : (Json.number value).nesting = 0 := rfl

@[simp] theorem nesting_string (text : String) : (Json.string text).nesting = 0 := rfl

@[simp] theorem nesting_array_le_succ_iff {items : List Json} {closed : Bool} {depth : Nat} :
    (Json.array items closed).nesting ≤ depth + 1 ↔ ∀ item ∈ items, item.nesting ≤ depth := by
  rw [nesting, Nat.add_comm, Nat.add_le_add_iff_right, nestingItems_le_iff]

@[simp] theorem nesting_object_le_succ_iff {members : List (String × Json)} {closed : Bool}
    {depth : Nat} :
    (Json.object members closed).nesting ≤ depth + 1 ↔
      ∀ member ∈ members, member.2.nesting ≤ depth := by
  rw [nesting, Nat.add_comm, Nat.add_le_add_iff_right, nestingMembers_le_iff]

theorem nesting_array_pos (items : List Json) (closed : Bool) :
    0 < (Json.array items closed).nesting := by
  rw [nesting]
  omega

theorem nesting_object_pos (members : List (String × Json)) (closed : Bool) :
    0 < (Json.object members closed).nesting := by
  rw [nesting]
  omega

theorem wholeItems_iff {items : List Json} :
    wholeItems items = true ↔ ∀ item ∈ items, item.whole = true := by
  induction items with
  | nil => simp [wholeItems]
  | cons item rest ih => simp [wholeItems, ih]

theorem wholeMembers_iff {members : List (String × Json)} :
    wholeMembers members = true ↔ ∀ member ∈ members, member.2.whole = true := by
  induction members with
  | nil => simp [wholeMembers]
  | cons member rest ih => simp [wholeMembers, ih]

mutual
theorem nesting_cut_le (json : Json) (depth : Nat) : (json.cut depth).nesting ≤ depth := by
  cases json with
  | array items closed =>
      cases depth with
      | zero => exact Nat.le_refl _
      | succ depth =>
          rw [cut, nesting, Nat.add_comm]
          exact Nat.succ_le_succ (nestingItems_cut_le items depth)
  | object members closed =>
      cases depth with
      | zero => exact Nat.le_refl _
      | succ depth =>
          rw [cut, nesting, Nat.add_comm]
          exact Nat.succ_le_succ (nestingMembers_cut_le members depth)
  | null | bool | number | string | broken => exact Nat.zero_le _

theorem nestingItems_cut_le (items : List Json) (depth : Nat) :
    nestingItems (cutItems items depth) ≤ depth := by
  cases items with
  | nil => exact Nat.zero_le _
  | cons item rest =>
      exact Nat.max_le.mpr ⟨nesting_cut_le item depth, nestingItems_cut_le rest depth⟩

theorem nestingMembers_cut_le (members : List (String × Json)) (depth : Nat) :
    nestingMembers (cutMembers members depth) ≤ depth := by
  cases members with
  | nil => exact Nat.zero_le _
  | cons member rest =>
      exact Nat.max_le.mpr ⟨nesting_cut_le member.2 depth, nestingMembers_cut_le rest depth⟩
end

mutual
theorem whole_cut_iff (json : Json) (depth : Nat) :
    (json.cut depth).whole = true ↔ json.whole = true ∧ json.nesting ≤ depth := by
  cases json with
  | array items closed =>
      cases depth with
      | zero => simp [cut, whole, nesting]
      | succ depth =>
          simp only [cut, whole, Bool.and_eq_true, wholeItems_cut_iff items depth, nesting,
            Nat.add_comm 1, Nat.add_le_add_iff_right, and_assoc]
  | object members closed =>
      cases depth with
      | zero => simp [cut, whole, nesting]
      | succ depth =>
          simp only [cut, whole, Bool.and_eq_true, wholeMembers_cut_iff members depth, nesting,
            Nat.add_comm 1, Nat.add_le_add_iff_right, and_assoc]
  | null | bool | number | string | broken => simp [cut, whole, nesting]

theorem wholeItems_cut_iff (items : List Json) (depth : Nat) :
    wholeItems (cutItems items depth) = true ↔
      wholeItems items = true ∧ nestingItems items ≤ depth := by
  cases items with
  | nil => simp [cutItems, wholeItems, nestingItems]
  | cons item rest =>
      simp only [cutItems, wholeItems, nestingItems, Bool.and_eq_true, Nat.max_le,
        whole_cut_iff item depth, wholeItems_cut_iff rest depth]
      exact and_and_and_comm

theorem wholeMembers_cut_iff (members : List (String × Json)) (depth : Nat) :
    wholeMembers (cutMembers members depth) = true ↔
      wholeMembers members = true ∧ nestingMembers members ≤ depth := by
  cases members with
  | nil => simp [cutMembers, wholeMembers, nestingMembers]
  | cons member rest =>
      simp only [cutMembers, wholeMembers, nestingMembers, Bool.and_eq_true, Nat.max_le,
        whole_cut_iff member.2 depth, wholeMembers_cut_iff rest depth]
      exact and_and_and_comm
end

mutual
/-- A tree that nests within the depth is left as it is. -/
theorem cut_of_nesting (json : Json) {depth : Nat} (shallow : json.nesting ≤ depth) :
    json.cut depth = json := by
  cases json with
  | array items closed =>
      cases depth with
      | zero => exact absurd (nesting_array_pos items closed) (Nat.not_lt_of_le shallow)
      | succ depth =>
          rw [nesting, Nat.add_comm] at shallow
          rw [cut, cutItems_of_nesting items (Nat.le_of_succ_le_succ shallow)]
  | object members closed =>
      cases depth with
      | zero => exact absurd (nesting_object_pos members closed) (Nat.not_lt_of_le shallow)
      | succ depth =>
          rw [nesting, Nat.add_comm] at shallow
          rw [cut, cutMembers_of_nesting members (Nat.le_of_succ_le_succ shallow)]
  | null | bool | number | string | broken => rfl

theorem cutItems_of_nesting (items : List Json) {depth : Nat}
    (shallow : nestingItems items ≤ depth) : cutItems items depth = items := by
  cases items with
  | nil => rfl
  | cons item rest =>
      obtain ⟨head, tail⟩ := Nat.max_le.mp shallow
      rw [cutItems, cut_of_nesting item head, cutItems_of_nesting rest tail]

theorem cutMembers_of_nesting (members : List (String × Json)) {depth : Nat}
    (shallow : nestingMembers members ≤ depth) : cutMembers members depth = members := by
  cases members with
  | nil => rfl
  | cons member rest =>
      obtain ⟨head, tail⟩ := Nat.max_le.mp shallow
      rw [cutMembers, cut_of_nesting member.2 head, cutMembers_of_nesting rest tail]
end

theorem readDocument_nesting (text : List Char) : (readDocument text).root.nesting ≤ nestingLimit :=
  nesting_cut_le _ _

end WireSchema.Json
