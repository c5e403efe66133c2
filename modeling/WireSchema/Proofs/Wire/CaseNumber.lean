import WireSchema.Proofs.Wire.RoundTrip

namespace WireSchema.Wire

/-! Numbers as values of enum cases.

A numeral that stands as the value of a case is kept if it denotes an integer of 64 bits with
sign and looks like one, and else it is refused.  What the reader makes of other numerals does
not matter, as no double and no larger integer is taken for a value.  Of a numeral out of range it
makes nothing, and no type is decoded around such a place.
-/

open Json (EndsNumeral Numeral Spells SpellsMember SpellsMembers SpellsString quotedThen skipSpace
  skipSpace_numeral spellsMember_quoted spellsString_quoted spells_quoted wholeNumeral
  wholeNumeral_value)

section

variable {α : Type} {numeral : Numeral} {number : JsonNumber}

/-- The value of the numeral is kept, or the numeral is refused, as no value of a case if it is
one for the reader. -/
structure KeptOrRefused (numeral : Numeral) (make : Int64 → α) (decoded : Decoded α) : Prop where
  kept_iff : ∀ value, decoded = .ok (make value) ↔ numeral.Integral ∧ numeral.value = value.toInt
  refused : ¬ (numeral.Integral ∧ -2 ^ 63 ≤ numeral.value ∧ numeral.value ≤ 2 ^ 63 - 1) →
    ∃ fault, decoded = .error fault ∧ (¬ numeral.Overflows → fault = .shape .noCaseValue)

theorem inRange_iff {value : Int} :
    (-2 ^ 63 ≤ (value : ℚ) ∧ (value : ℚ) ≤ 2 ^ 63 - 1) ↔
      Int64.minValue.toInt ≤ value ∧ value ≤ Int64.maxValue.toInt := by
  have least : Int64.minValue.toInt = -2 ^ 63 := rfl
  have greatest : Int64.maxValue.toInt = 2 ^ 63 - 1 := rfl
  rw [least, greatest]
  exact_mod_cast Iff.rfl

namespace KeptOrRefused

variable {make : Int64 → α}

theorem inRange_toInt (value : Int64) :
    -2 ^ 63 ≤ (value.toInt : ℚ) ∧ (value.toInt : ℚ) ≤ 2 ^ 63 - 1 :=
  inRange_iff.mpr ⟨value.minValue_le_toInt, value.toInt_le⟩

theorem of_kept (injective : ∀ left right, make left = make right → left = right) {value : Int64}
    (integral : numeral.Integral) (same : numeral.value = value.toInt) :
    KeptOrRefused numeral make (.ok (make value)) where
  kept_iff other := by
    constructor
    · intro decoded
      rw [← injective _ _ (Except.ok.inj decoded)]
      exact ⟨integral, same⟩
    · intro spelled
      have equal : value.toInt = other.toInt := by exact_mod_cast same.symm.trans spelled.2
      rw [Int64.toInt_inj.mp equal]
  refused outside := absurd ⟨integral, same ▸ inRange_toInt value⟩ outside

theorem of_refused
    (outside : ¬ (numeral.Integral ∧ -2 ^ 63 ≤ numeral.value ∧ numeral.value ≤ 2 ^ 63 - 1))
    {fault : DecodeFault} (named : ¬ numeral.Overflows → fault = .shape .noCaseValue) :
    KeptOrRefused numeral make (.error fault) where
  kept_iff value := by
    constructor
    · exact fun decoded => nomatch decoded
    · exact fun spelled => absurd ⟨spelled.1, spelled.2 ▸ inRange_toInt value⟩ outside
  refused _ := ⟨fault, rfl, named⟩

/-- No integer of 64 bits goes out of range. -/
theorem of_overflows (overflows : numeral.Overflows) (fault : DecodeFault) :
    KeptOrRefused numeral make (.error fault) := by
  refine of_refused (fun spelled => ?_) fun fits => absurd overflows fits
  obtain ⟨_, least, greatest⟩ := spelled
  have size : |numeral.value| ≤ 2 ^ 63 := abs_le.mpr ⟨least, greatest.trans (by norm_num)⟩
  have wide : 2 ^ 63 < 10 ^ 307 := by decide +kernel
  exact Numeral.not_overflows (size.trans_lt (by exact_mod_cast wide)) overflows

end KeptOrRefused

theorem decodeCaseValue_integer (value : Int) :
    decodeCaseValue (.number (.integer value)) =
      if Int64.minValue.toInt ≤ value ∧ value ≤ Int64.maxValue.toInt then
        .ok (.integer (Int64.ofInt value))
      else .error (.shape .noCaseValue) := rfl

theorem keptOrRefused_of_reads (reads : numeral.ReadsAs number) (make : CaseValue → α)
    (injective : ∀ left right, make left = make right → left = right) :
    KeptOrRefused numeral (fun value => make (.integer value)) (do
      let value ← decodeCaseValue (.number number)
      .ok (make value)) := by
  cases reads with
  | @integer value integral same least greatest =>
      rw [decodeCaseValue_integer]
      by_cases inRange : Int64.minValue.toInt ≤ value ∧ value ≤ Int64.maxValue.toInt
      · rw [if_pos inRange]
        refine .of_kept (fun left right equal => CaseValue.integer.inj (injective _ _ equal))
          integral ?_
        have below : value < 2 ^ 63 := Int.lt_of_le_sub_one inRange.2
        rw [Int64.toInt_ofInt_of_le inRange.1 below, same]
      · rw [if_neg inRange]
        exact .of_refused (fun spelled => inRange (inRange_iff.mp (same ▸ spelled.2))) fun _ => rfl
  | double lost =>
      -- An integer of 64 bits would have been read as one.
      refine .of_refused (fun spelled => ?_) fun _ => rfl
      obtain ⟨integral, inRange⟩ := spelled
      have same := Numeral.value_eq_integer integral.noFraction integral.noExponent
      rw [same] at inRange
      obtain ⟨least, greatest⟩ := inRange_iff.mp inRange
      have lower : Json.leastInteger = Int64.minValue.toInt := rfl
      have upper : Int64.maxValue.toInt ≤ Json.greatestInteger := by decide
      exact lost integral _ same (lower ▸ least) (greatest.trans upper)

/-- What the reader makes of the numeral is taken for a value only as `KeptOrRefused` says. -/
theorem keptOrRefused_of_toJson (numeral : Numeral) (make : CaseValue → α)
    (injective : ∀ left right, make left = make right → left = right) :
    KeptOrRefused numeral (fun value => make (.integer value)) (do
      let value ← decodeCaseValue numeral.toJson
      .ok (make value)) := by
  by_cases overflows : numeral.Overflows
  · rw [Numeral.toJson, Numeral.number?_eq_none overflows]
    exact .of_overflows overflows _
  · obtain ⟨number, made, reads⟩ := Numeral.number?_exists overflows
    rw [Numeral.toJson, made]
    exact keptOrRefused_of_reads reads make injective

/-- The text opens with a member called "value", and the numeral is written for it. -/
inductive WritesValue (numeral : Numeral) : (text rest : List Char) → Prop
  | member {text quoted after content rest : List Char} : skipSpace text = '"' :: quoted →
      SpellsString quoted (some "value") after → skipSpace after = ':' :: content →
      skipSpace content = numeral.text ++ rest → WritesValue numeral text rest

/-- The text opens with a case of the name, which has the numeral written for its value. -/
inductive WritesCase (name : String) (numeral : Numeral) : (text rest : List Char) → Prop
  | nameFirst {text inside after next final rest : List Char} : skipSpace text = '\x7b' :: inside →
      SpellsMember inside (some "name", .string name) after → skipSpace after = ',' :: next →
      WritesValue numeral next final → skipSpace final = '\x7d' :: rest →
      WritesCase name numeral text rest
  | valueFirst {text inside after next final rest : List Char} :
      skipSpace text = '\x7b' :: inside → WritesValue numeral inside after →
      skipSpace after = ',' :: next → SpellsMember next (some "name", .string name) final →
      skipSpace final = '\x7d' :: rest → WritesCase name numeral text rest
  | listed {text inside after next content final rest : List Char} :
      skipSpace text = '[' :: inside → Spells inside (.string name) after →
      skipSpace after = ',' :: next → skipSpace next = numeral.text ++ final →
      skipSpace final = ']' :: rest → WritesCase name numeral text rest

/-- The forms that a case has as a tree. -/
def caseForms (name : String) (content : Json) : List Json :=
  [ .object [("name", .string name), ("value", content)] true,
    .object [("value", content), ("name", .string name)] true,
    .array [.string name, content] true ]

theorem endsNumeral_of_mark {mark : Char} (isMark : mark ∈ [',', ']', '\x7d'])
    {text rest : List Char} (form : skipSpace text = mark :: rest) : EndsNumeral text := by
  cases text with
  | nil => cases form
  | cons c text =>
      rw [Json.skipSpace_cons] at form
      split at form
      · rename_i space
        simp only [Json.isSpace, Bool.or_eq_true, beq_iff_eq] at space
        intro first head
        cases head
        rcases space with ((rfl | rfl) | rfl) | rfl <;> decide
      · rw [(List.cons.inj form).1]
        exact Json.endsNumeral_cons isMark text

theorem WritesValue.spells {text rest : List Char} (writes : WritesValue numeral text rest)
    (ends : EndsNumeral rest) : SpellsMember text (some "value", numeral.toJson) rest := by
  cases writes with
  | member form named colon content =>
      exact .pair form named colon (.number content (ends.ends numeral))

theorem WritesCase.spells {name : String} {text rest : List Char}
    (writes : WritesCase name numeral text rest) :
    ∃ json ∈ caseForms name numeral.toJson, Spells text json rest := by
  cases writes with
  | nameFirst opened named comma value closed =>
      have spelled := value.spells (endsNumeral_of_mark (by simp) closed)
      exact ⟨_, List.mem_cons_self, .object opened (.more named comma (.last spelled closed))⟩
  | valueFirst opened value comma named closed =>
      have spelled := value.spells (endsNumeral_of_mark (by simp) comma)
      refine ⟨_, List.mem_cons_of_mem _ List.mem_cons_self, ?_⟩
      exact .object opened (.more spelled comma (.last named closed))
  | listed opened named comma value closed =>
      have ends := (endsNumeral_of_mark (by simp) closed).ends numeral
      refine ⟨_, List.mem_cons_of_mem _ (List.mem_cons_of_mem _ List.mem_cons_self), ?_⟩
      exact .array opened (.more named comma (.last (.number value ends) closed))

theorem decodeCase_form {name : String} {content json : Json} (form : json ∈ caseForms name content)
    (mode : Mode) :
    decodeCase mode json = (do
      let value ← decodeCaseValue content
      .ok ⟨name, value⟩) := by
  simp only [caseForms, List.mem_cons, List.not_mem_nil, or_false] at form
  rcases form with rfl | rfl | rfl
  · simp [decodeCase, Shape.decode, fillMembers, caseShape, decodeString, require]
  · simp [decodeCase, Shape.decode, fillMembers, caseShape, decodeString, require]
  · simp [decodeCase, Shape.decode, fillItems, caseShape, decodeString, require]

theorem toJson_nesting (numeral : Numeral) : numeral.toJson.nesting = 0 := by
  rw [Numeral.toJson]
  cases numeral.number? with
  | none => rfl
  | some number => rfl

theorem caseForm_nesting {name : String} {json : Json}
    (form : json ∈ caseForms name numeral.toJson) : json.nesting = 1 := by
  have flat := toJson_nesting numeral
  simp only [caseForms, List.mem_cons, List.not_mem_nil, or_false] at form
  rcases form with rfl | rfl | rfl
  · simp [Json.nesting, Json.nestingMembers, flat]
  · simp [Json.nesting, Json.nestingMembers, flat]
  · simp [Json.nesting, Json.nestingItems, flat]

theorem caseForm_whole_iff {name : String} {json : Json}
    (form : json ∈ caseForms name numeral.toJson) : json.whole = true ↔ ¬ numeral.Overflows := by
  have content : numeral.toJson.whole = true ↔ ¬ numeral.Overflows := by
    by_cases overflows : numeral.Overflows
    · simp [Numeral.toJson, Numeral.number?_eq_none overflows, Json.whole, overflows]
    · obtain ⟨number, made, _⟩ := Numeral.number?_exists overflows
      simp [Numeral.toJson, made, Json.whole, overflows]
  rw [← content]
  simp only [caseForms, List.mem_cons, List.not_mem_nil, or_false] at form
  rcases form with rfl | rfl | rfl
  · simp [Json.whole, Json.wholeMembers]
  · simp [Json.whole, Json.wholeMembers]
  · simp [Json.whole, Json.wholeItems]

theorem spellsMembers_quoted (name text : String) {next rest : List Char}
    {members : List (Option String × Json)} (later : SpellsMembers next members rest) :
    SpellsMembers (quotedThen name (':' :: quotedThen text (',' :: next)))
      ((some name, .string text) :: members) rest :=
  .more (spellsMember_quoted name (spells_quoted text _)) rfl later

/-- A case written without blanks, its name first. -/
def caseText (name : String) (numeral : Numeral) (rest : List Char) : List Char :=
  '\x7b' :: quotedThen "name" (':' :: quotedThen name
    (',' :: quotedThen "value" (':' :: (numeral.text ++ '\x7d' :: rest))))

theorem writesCase_caseText (name : String) (numeral : Numeral) (rest : List Char) :
    WritesCase name numeral (caseText name numeral rest) rest :=
  .nameFirst rfl (spellsMember_quoted "name" (spells_quoted name _)) rfl
    (.member rfl (spellsString_quoted "value" _) rfl (skipSpace_numeral numeral _)) rfl

/-- The text of an enum as far as its first case. -/
def enumText (enum : String) (backing : Backing) (cases : List Char) : List Char :=
  '\x7b' :: quotedThen "kind" (':' :: quotedThen "enum"
    (',' :: quotedThen "name" (':' :: quotedThen enum
      (',' :: quotedThen "backing_kind" (':' :: quotedThen backing.name
        (',' :: quotedThen "cases" (':' :: '[' :: cases)))))))

def schemaText (enum : String) (backing : Backing) (cases : List Char) : List Char :=
  '\x7b' :: quotedThen "types" (':' :: '[' :: enumText enum backing cases)

/-- What closes such a text after the case. -/
def schemaEnd : List Char := [']', '\x7d', ']', '\x7d']

def enumMembers (enum : String) (backing : Backing) (case : Json) : List (String × Json) :=
  [("name", .string enum), ("backing_kind", backing.toJson), ("cases", .ofItems [case])]

def schemaTree (enum : String) (backing : Backing) (case : Json) : Json :=
  .ofMembers
    [("types", .ofItems [.ofMembers (("kind", .string "enum") :: enumMembers enum backing case)])]

theorem spells_schemaText (enum : String) (backing : Backing) {cases : List Char} {case : Json}
    (spelled : Spells cases case schemaEnd) :
    Spells (schemaText enum backing cases) (schemaTree enum backing case) [] := by
  have caseList : Spells ('[' :: cases) (.ofItems [case]) ['\x7d', ']', '\x7d'] :=
    .array rfl (.last spelled rfl)
  have last := SpellsMembers.last (spellsMember_quoted "cases" caseList) rfl
  have members := spellsMembers_quoted "kind" "enum"
    (spellsMembers_quoted "name" enum (spellsMembers_quoted "backing_kind" backing.name last))
  have decl : Spells (enumText enum backing cases)
      (.ofMembers (("kind", .string "enum") :: enumMembers enum backing case)) [']', '\x7d'] :=
    .object rfl members
  have declList : Spells ('[' :: enumText enum backing cases)
      (.ofItems [.ofMembers (("kind", .string "enum") :: enumMembers enum backing case)])
      ['\x7d'] := .array rfl (.last decl rfl)
  exact .object rfl (.last (spellsMember_quoted "types" declList) rfl)

theorem decodeSequence_single {decode : Json → Decoded α} (item : Json) :
    decodeSequence decode (.ofItems [item]) = (do
      let value ← decode item
      .ok [value]) := by
  simp only [Json.ofItems, decodeSequence, decodeItems, requireClosed_true]
  cases decode item with
  | error fault => rfl
  | ok value => rfl

theorem decodeSchema_schemaTree (enum : String) (backing : Backing) {case : Json}
    (whole : case.whole = true) :
    decodeSchema (schemaTree enum backing case) = (do
      let case ← decodeCase .buffered case
      .ok [.enum ⟨enum, backing, [case]⟩]) := by
  have isWhole : ∀ member ∈ enumMembers enum backing case, member.2.whole = true := by
    simp [enumMembers, Backing.toJson, Json.ofItems, Json.whole, Json.wholeItems, whole]
  have backingKind := decodeBacking_toJson .buffered backing
  have cases : decodeSequence (caseShape.decode .buffered) (.ofItems [case]) = (do
      let case ← decodeCase .buffered case
      .ok [case]) := decodeSequence_single case
  have decl : decodeDecl (.ofMembers (("kind", .string "enum") :: enumMembers enum backing case)) =
      (do
        let case ← decodeCase .buffered case
        .ok (.enum ⟨enum, backing, [case]⟩)) := by
    rw [decodeDecl, decodeTagged_ofMembers rfl (by simp [enumMembers]) isWhole]
    generalize decodeCase .buffered case = result at cases ⊢
    simp [decodeEnum, Shape.decode, Json.ofMembers, enumMembers, fillMembers, enumShape,
      decodeString, backingKind, cases, require]
  rw [schemaTree]
  generalize Json.ofMembers (("kind", .string "enum") :: enumMembers enum backing case) = tree
    at decl ⊢
  have decls : decodeSequence decodeDecl (.ofItems [tree]) = _ := decodeSequence_single tree
  rw [decl] at decls
  simp [decodeSchema, Shape.decode, fillMembers, schemaShape, Json.ofMembers, decls]

theorem decodeSchema_schemaTree_error (enum : String) (backing : Backing) {case : Json}
    (broken : case.whole = false) :
    ∃ fault, decodeSchema (schemaTree enum backing case) = .error fault := by
  cases result : decodeSchema (schemaTree enum backing case) with
  | error fault => exact ⟨fault, rfl⟩
  | ok decls =>
      have whole := whole_of_decodeSchema result
      simp [Json.ofItems, Json.ofMembers, enumMembers, Backing.toJson, Json.whole, Json.wholeItems,
        Json.wholeMembers, broken] at whole

theorem decodeText_case_keptOrRefused {name : String} {text rest : List Char}
    (writes : WritesCase name numeral text rest) (ends : skipSpace rest = []) (mode : Mode) :
    KeptOrRefused numeral (fun value => (⟨name, .integer value⟩ : EnumCase))
      (decodeText (decodeCase mode) (String.ofList text)) := by
  obtain ⟨json, form, spelled⟩ := writes.spells
  have shallow : json.nesting ≤ Json.nestingLimit := caseForm_nesting form ▸ by decide
  have read := spelled.spelledBy ends shallow
  rw [← String.toList_ofList (l := text)] at read
  rw [decodeText_of_spelled read, decodeCase_form form]
  exact keptOrRefused_of_toJson numeral (fun value => (⟨name, value⟩ : EnumCase))
    fun left right same => (EnumCase.mk.inj same).2

theorem decodeText_schema_keptOrRefused {name : String} {text : List Char}
    (writes : WritesCase name numeral text schemaEnd) (enum : String) (backing : Backing) :
    KeptOrRefused numeral
      (fun value => [TypeDecl.enum ⟨enum, backing, [⟨name, .integer value⟩]⟩])
      (decodeText decodeSchema (String.ofList (schemaText enum backing text))) := by
  obtain ⟨json, form, spelled⟩ := writes.spells
  have shallow : (schemaTree enum backing json).nesting ≤ Json.nestingLimit := by
    simp [schemaTree, enumMembers, Json.ofMembers, Json.ofItems, Backing.toJson, Json.nestingLimit,
      caseForm_nesting form]
  have read := (spells_schemaText enum backing spelled).spelledBy rfl shallow
  rw [← String.toList_ofList (l := schemaText enum backing text)] at read
  rw [decodeText_of_spelled read]
  by_cases overflows : numeral.Overflows
  · have broken := Bool.eq_false_iff.mpr fun whole => (caseForm_whole_iff form).mp whole overflows
    obtain ⟨fault, refused⟩ := decodeSchema_schemaTree_error enum backing broken
    exact refused ▸ .of_overflows overflows fault
  · rw [decodeSchema_schemaTree enum backing ((caseForm_whole_iff form).mpr overflows),
      decodeCase_form form, bind_assoc]
    exact keptOrRefused_of_toJson numeral
      (fun value => [TypeDecl.enum ⟨enum, backing, [⟨name, value⟩]⟩])
      fun left right same => by simpa using same

end

/-- A numeral that is written for the value of a case is kept, alone and in a schema, if it is an
integer of 64 bits with sign, and refused if not.  Below `10 ^ 307` none is out of range. -/
theorem numeral_keptOrRefused (numeral : Numeral) :
    (|numeral.value| < 10 ^ 307 → ¬ numeral.Overflows) ∧
      (∀ name mode text rest, WritesCase name numeral text rest → skipSpace rest = [] →
        KeptOrRefused numeral (fun value => (⟨name, .integer value⟩ : EnumCase))
          (decodeText (decodeCase mode) (String.ofList text))) ∧
      ∀ enum backing name text, WritesCase name numeral text schemaEnd →
        KeptOrRefused numeral
          (fun value => [TypeDecl.enum ⟨enum, backing, [⟨name, .integer value⟩]⟩])
          (decodeText decodeSchema (String.ofList (schemaText enum backing text))) := by
  refine ⟨Numeral.not_overflows, fun name mode text rest writes ends => ?_,
    fun enum backing name text writes => ?_⟩
  · exact decodeText_case_keptOrRefused writes ends mode
  · exact decodeText_schema_keptOrRefused writes enum backing

/-- A whole number that does not look like one. -/
def thousand : Numeral := Json.powerNumeral 3

/-- The least integer of 64 bits is kept, and the first one beyond them is refused, as is an
exponent. -/
theorem numerals_keptOrRefused :
    decodeText (decodeCase .streamed)
        (String.ofList (caseText "Low" (wholeNumeral true 9223372036854775808) [])) =
        .ok ⟨"Low", .integer (-9223372036854775808)⟩ ∧
      decodeText decodeSchema (String.ofList (schemaText "Range" .integer
        (caseText "High" (wholeNumeral false 9223372036854775808) schemaEnd))) =
        .error (.shape .noCaseValue) ∧
      decodeText (decodeCase .buffered) (String.ofList (caseText "Thousand" thousand [])) =
        .error (.shape .noCaseValue) := by
  have inRange {numeral : Numeral} (small : |numeral.value| < 10 ^ 20) : ¬ numeral.Overflows :=
    (numeral_keptOrRefused numeral).1
      (small.trans (pow_lt_pow_right₀ (by norm_num) (by decide)))
  have lowValue : (wholeNumeral true 9223372036854775808).value = -9223372036854775808 := by
    rw [wholeNumeral_value]
    norm_num
  have highValue : (wholeNumeral false 9223372036854775808).value = 9223372036854775808 := by
    rw [wholeNumeral_value]
    norm_num
  have thousandValue : thousand.value = 1000 := by
    rw [thousand, Json.powerNumeral_value]
    norm_num
  refine ⟨?_, ?_, ?_⟩
  · have decoded := (numeral_keptOrRefused (wholeNumeral true 9223372036854775808)).2.1 "Low"
      .streamed _ [] (writesCase_caseText ..) rfl
    have same : (-9223372036854775808 : Int64).toInt = -9223372036854775808 := rfl
    refine (decoded.kept_iff _).mpr ⟨⟨rfl, rfl, ?_⟩, ?_⟩
    · rw [lowValue]
      norm_num
    · rw [lowValue, same]
      norm_num
  · have decoded := (numeral_keptOrRefused (wholeNumeral false 9223372036854775808)).2.2 "Range"
      .integer "High" _ (writesCase_caseText ..)
    obtain ⟨fault, refused, named⟩ := decoded.refused fun spelled => by
      rw [highValue] at spelled
      norm_num at spelled
    rw [refused, named (inRange (by rw [highValue]; norm_num))]
  · have decoded := (numeral_keptOrRefused thousand).2.1 "Thousand" .buffered _ []
      (writesCase_caseText ..) rfl
    obtain ⟨fault, refused, named⟩ := decoded.refused fun spelled =>
      absurd spelled.1.noExponent (Option.some_ne_none _)
    rw [refused, named (inRange (by rw [thousandValue]; norm_num))]

end WireSchema.Wire
