import WireSchema.Proofs.Wire.Depth

namespace WireSchema

/-! Models as texts, there and back.

A model is read back from its own text exactly when that text does not nest too deep for
the reader, which the types of its fields decide.  A model that was read from some text
never has deeper types than that.
-/

namespace Wire

theorem decodeText_eq_ok_iff {decode : Json → Decoded α} {text : String} {value : α} :
    decodeText decode text = .ok value ↔
      decode (Json.readDocument text.toList).root = .ok value ∧
        (Json.readDocument text.toList).complete = true := by
  rw [decodeText, bind_eq_ok_iff]
  simp only [requireClosed_eq_ok_iff]
  constructor
  · rintro ⟨_, decoded, complete, rfl⟩
    exact ⟨decoded, complete⟩
  · rintro ⟨decoded, complete⟩
    exact ⟨value, decoded, complete, rfl⟩

theorem decodeText_of_spelled {decode : Json → Decoded α} {json : Json} {text : String}
    (spelled : Json.SpelledBy json text.toList) : decodeText decode text = decode json := by
  rw [decodeText, Json.readDocument_eq_iff.mpr spelled]
  exact bind_pure _

theorem decodeText_text {decode : Json → Decoded α} {json : Json} (exact : json.Exact) :
    decodeText decode json.text = decode (json.cut Json.nestingLimit) :=
  decodeText_of_spelled exact.spelledBy

/-- The list of declarations is there to its last bracket, as every tag is looked for to the end. -/
theorem whole_of_decodeSchema {content : Json} {decls : List TypeDecl}
    (decoded : decodeSchema (.ofMembers [("types", content)]) = .ok decls) :
    content.whole = true := by
  obtain ⟨_, filled, _⟩ := bind_eq_ok_iff.mp decoded
  obtain ⟨_, step, _⟩ := bind_eq_ok_iff.mp filled
  obtain ⟨listed, sequence, _⟩ := bind_eq_ok_iff.mp step
  obtain ⟨items, rfl, related⟩ := decodeSequence_eq_ok_iff.mp sequence
  rw [Json.whole, Bool.true_and, Json.wholeItems_iff]
  intro item place
  obtain ⟨_, _, decodedItem⟩ := forall₂_exists_left related place
  exact decodeTagged_whole decodedItem

/-- A model that nests too deep loses a part of its declarations. -/
theorem nesting_of_decodeSchema (model : Model) {decls : List TypeDecl}
    (decoded : decodeSchema (model.toJson.cut Json.nestingLimit) = .ok decls) :
    model.toJson.nesting ≤ Json.nestingLimit := by
  have whole : (model.toJson.cut Json.nestingLimit).whole = true := by
    rw [Model.toJson, Json.ofMembers, Json.nestingLimit, Json.cut] at decoded ⊢
    have content := whole_of_decodeSchema decoded
    rw [Json.whole, Bool.true_and, Json.wholeMembers_iff]
    exact List.forall_mem_singleton.mpr content
  exact ((Json.whole_cut_iff _ _).mp whole).2

theorem decodeText_schema_depth {text : String} {decls : List TypeDecl}
    (decoded : decodeText decodeSchema text = .ok decls) :
    ∀ decl ∈ decls, decl.NestsWithin 122 := by
  obtain ⟨decoded, _⟩ := decodeText_eq_ok_iff.mp decoded
  exact decodeSchema_depth (Json.readDocument_nesting text.toList) decoded

end Wire

namespace Model

theorem ofText_eq_ok_iff {text : String} {model : Model} :
    ofText text = .ok model ↔ Wire.decodeText Wire.decodeSchema text = .ok model.decls := by
  constructor
  · intro read
    unfold ofText at read
    split at read
    · cases read
    · rename_i decls decoded
      split at read
      · cases read
      · rename_i made
        cases read
        rw [decoded, ofDecls_eq_ok_iff.mp made]
  · intro decoded
    simp [ofText, decoded, ofDecls_decls]

theorem nestsWithin_of_ofText {text : String} {model : Model} (read : ofText text = .ok model) :
    model.NestsWithin 122 :=
  Wire.decodeText_schema_depth (ofText_eq_ok_iff.mp read)

/-- A model comes back from its own text unless one of its fields has a type of more than
122 levels; then the text is refused as it is read.  Whatever has been read once can be
written and read again. -/
theorem ofText_text (model : Model) :
    (ofText model.text = .ok model ↔ model.NestsWithin 122) ∧
      (¬ model.NestsWithin 122 → ∃ fault, ofText model.text = .error (.unreadable fault)) ∧
      ∀ text, ofText text = .ok model → ofText model.text = .ok model := by
  have limit : model.toJson.nesting ≤ Json.nestingLimit ↔ model.NestsWithin 122 :=
    model.toJson_nesting_le_iff 122
  have reads (shallow : model.NestsWithin 122) : ofText model.text = .ok model := by
    rw [ofText_eq_ok_iff, text, Wire.decodeText_text model.toJson_exact,
      Json.cut_of_nesting _ (limit.mpr shallow)]
    exact Wire.decodeSchema_toJson model
  refine ⟨⟨nestsWithin_of_ofText, reads⟩, ?_, ?_⟩
  · intro deep
    cases result : Wire.decodeText Wire.decodeSchema model.text with
    | error fault => exact ⟨fault, by simp only [ofText, result]⟩
    | ok decls =>
        rw [text, Wire.decodeText_text model.toJson_exact] at result
        exact absurd (limit.mp (Wire.nesting_of_decodeSchema model result)) deep
  · intro text read
    exact reads (nestsWithin_of_ofText read)

end Model

/-- A type of `count` lists around a scalar. -/
def layered : Nat → TypeRef
  | 0 => .primitive .string
  | count + 1 => .list (layered count)

theorem layered_depth (count : Nat) : (layered count).depth = count + 1 := by
  induction count with
  | zero => rfl
  | succ count ih =>
      rw [layered, TypeRef.depth, ih]
      omega

theorem checkType_layered (known : List String) (record field : String) (count : Nat) :
    checkType known record field (layered count) = .ok () := by
  induction count with
  | zero => rfl
  | succ count ih => exact ih

def stack (count : Nat) : Model where
  decls := [.record ⟨"Stack", [⟨"items", layered count, "items"⟩]⟩]
  valid := by
    have checked := checkType_layered ["Stack"] "Stack" "items" count
    simp [validate, checkTypeNames, checkDecls, checkDecl, checkFields, checkField, TypeDecl.name,
      checked]
    rfl

theorem stack_nestsWithin_iff (count depth : Nat) :
    (stack count).NestsWithin depth ↔ count + 1 ≤ depth := by
  simp [stack, Model.NestsWithin, TypeDecl.NestsWithin, layered_depth]

theorem stack_ofText_text :
    Model.ofText (stack 121).text = .ok (stack 121) ∧
      ∃ fault, Model.ofText (stack 122).text = .error (.unreadable fault) := by
  constructor
  · exact (Model.ofText_text (stack 121)).1.mpr ((stack_nestsWithin_iff 121 122).mpr (by decide))
  · exact (Model.ofText_text (stack 122)).2.1 (mt (stack_nestsWithin_iff 122 122).mp (by decide))

end WireSchema
