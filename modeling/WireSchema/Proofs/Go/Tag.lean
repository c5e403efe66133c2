import WireSchema.Proofs.Generation
import WireSchema.Proofs.Go.Outline
import WireSchema.Proofs.Text.Delimited

namespace WireSchema.Go

/-! Struct tags as the JSON package of Go reads them.

A tag is a raw string between backticks, and its value for JSON stands between the double
quotes behind `json:`.  A value may go on behind a comma with options, and the value `-`
leaves its field out.  No key that a tag carries holds a mark of this notation, but the key
`-` is the sign for leaving out, so its field never travels.
-/

/-- What a tag says about the place of its field in JSON. -/
inductive WireName where
  | skipped
  | named (key : String)
deriving DecidableEq

/-- The text between a mark that opens it and the next such mark. -/
def between? (mark : Char) : List Char → Option (List Char)
  | [] => none
  | first :: rest =>
      if first = mark ∧ mark ∈ rest then some (rest.takeWhile (· != mark)) else none

def readTagValue (value : List Char) : WireName :=
  if value = ['-'] then .skipped else .named (String.ofList (value.takeWhile (· != ',')))

def readTag (cell : String) : Option WireName :=
  match between? '\x60' cell.toList with
  | some ('j' :: 's' :: 'o' :: 'n' :: ':' :: quoted) => (between? '"' quoted).map readTagValue
  | _ => none

/-- What becomes of a field with this key. -/
def wireName (key : String) : WireName :=
  if key = "-" then .skipped else .named key

theorem ne_of_absent {mark : Char} {inside : List Char} (absent : mark ∉ inside) :
    ∀ c ∈ inside, (c != mark) = true :=
  fun _ member => bne_iff_ne.mpr fun same => absent (same ▸ member)

theorem between?_append {mark : Char} {inside : List Char} (absent : mark ∉ inside)
    (rest : List Char) : between? mark (mark :: (inside ++ mark :: rest)) = some inside := by
  have there : mark ∈ inside ++ mark :: rest := by simp
  rw [between?, if_pos ⟨rfl, there⟩, Text.takeWhile_run (ne_of_absent absent) (by simp)]

theorem readTagValue_of_carried {key : String} (carried : ∀ c ∈ key.toList, breaksTag c = false) :
    readTagValue key.toList = wireName key := by
  have comma : ',' ∉ key.toList := fun member => absurd (carried ',' member) (by decide)
  have dash : key.toList = ['-'] ↔ key = "-" := by
    rw [← String.toList_inj]
    rfl
  have name := @Text.takeWhile_run _ _ _ [] (ne_of_absent comma) (by simp)
  rw [List.append_nil] at name
  rw [readTagValue, wireName, name, String.ofList_toList]
  simp only [dash]

theorem readTag_tag {key : String} (carried : ∀ c ∈ key.toList, breaksTag c = false) :
    readTag (tag key) = some (wireName key) := by
  have backtick : '\x60' ∉ key.toList := fun member => absurd (carried _ member) (by decide)
  have quote : '"' ∉ key.toList := fun member => absurd (carried _ member) (by decide)
  have raw : '\x60' ∉ "json:\"".toList ++ key.toList ++ ['"'] := by simp [backtick]
  have cell : (tag key).toList =
      '\x60' :: (("json:\"".toList ++ key.toList ++ ['"']) ++ '\x60' :: []) := by
    simp [tag]
  rw [readTag, cell, between?_append raw]
  have value := between?_append quote []
  simp only [String.reduceToList, List.cons_append, List.nil_append, value, Option.map_some,
    readTagValue_of_carried carried]

/-- The struct of a record has one row for each field, and its last cell is read as the key
of the field, unless the key is the sign for leaving the field out. -/
theorem layRecord_wireNames {model : Model} {symbols : Symbols} {record : RecordType}
    {declaration : Declaration} (laid : layRecord model symbols record = .ok declaration) :
    ∃ rows : List Row,
      declaration.text = "type " ++ declaration.identifier ++ " struct \x7b\n" ++
        Text.alignRows (rows.map Row.cells) ++ "\x7d\n" ∧
      List.Forall₂ (fun field row => readTag row.last = some (wireName field.key))
        record.fields rows := by
  cases layRecord_eq_ok_iff.mp laid with
  | @struct _ identifier fields _ _ related _ =>
      refine ⟨fields.map Row.ofField, ?_, ?_⟩
      · rw [Declaration.fieldRows_cells]
        rfl
      · rw [List.forall₂_map_right_iff]
        refine related.imp fun field laidField lays => ?_
        rw [Row.ofField, lays.key_eq]
        exact readTag_tag lays.taggable

/-- One key is a dash, and one only holds a dash. -/
def account : RecordType :=
  ⟨"account", [⟨"id", .primitive .string, "-"⟩, ⟨"owner", .primitive .string, "owner-id"⟩]⟩

def accounts : Model where
  decls := [.record account]
  valid := by decide

def accountStruct : Declaration :=
  .struct "Account" [⟨"Id", .builtin .string, "-"⟩, ⟨"Owner", .builtin .string, "owner-id"⟩]

theorem layRecord_account :
    layRecord accounts ⟨.go, [⟨.type "account", "Account"⟩]⟩ account = .ok accountStruct := by
  decide +kernel

theorem account_wireNames :
    ∃ rows : List Row,
      accountStruct.text = "type " ++ accountStruct.identifier ++ " struct \x7b\n" ++
        Text.alignRows (rows.map Row.cells) ++ "\x7d\n" ∧
      List.Forall₂ (fun field row => readTag row.last = some (wireName field.key))
        account.fields rows :=
  layRecord_wireNames layRecord_account

/-- A file is generated in which the row of a field says to leave the field out. -/
theorem accounts_skipped :
    ∃ generated block row, generate accounts (.go {}) = .ok generated ∧
      block ∈ outline generated.content ∧ row ∈ block.rows ∧ row.identifier = "Id" ∧
      readTag row.last = some .skipped := by
  have resolved : resolve naming accounts = .ok ⟨.go, [⟨.type "account", "Account"⟩]⟩ := by
    decide +kernel
  have laid : layFile accounts ⟨.go, [⟨.type "account", "Account"⟩]⟩ "gen" =
      .ok ⟨"gen", [accountStruct]⟩ := by
    decide +kernel
  have generated : generate accounts (.go {}) =
      .ok ⟨.go {}, "generated.go", File.text ⟨"gen", [accountStruct]⟩⟩ :=
    generate_go_eq_ok_iff.mpr ⟨_, _, resolved, laid, rfl⟩
  refine ⟨_, accountStruct.block, ⟨"Id", "string", tag "-"⟩, generated, ?_, by decide, rfl, ?_⟩
  · rw [outline_text (layFile_printable laid)]
    exact List.mem_singleton.mpr rfl
  · exact readTag_tag (by simpa using (by decide : breaksTag '-' = false))

end WireSchema.Go
