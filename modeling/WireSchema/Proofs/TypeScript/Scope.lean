import WireSchema.Proofs.Schema.WellFormed
import WireSchema.Proofs.TypeScript.Outline

namespace WireSchema.TypeScript

/-! Every name in a generated TypeScript file has one meaning.

Types share the scope of the file, and the members of an enum or an object are apart from
those of all others.  A type is written in words with marks between them, and a word is a
builtin one or the name of a type that the file exports, never both: the builtin words are
reserved.
-/

/-- The longest runs of characters of identifiers. -/
def words (text : List Char) : List (List Char) :=
  (text.splitOnP (!inName ·)).filter (!·.isEmpty)

def atoms (type : String) : List String := (words type.toList).map String.ofList

theorem words_append {word after : List Char} (nonempty : word ≠ [])
    (inside : ∀ c ∈ word, inName c = true) (stops : ∀ c ∈ after.head?, inName c = false) :
    words (word ++ after) = word :: words after := by
  have run : ∀ c ∈ word, (!inName c) = false := by simpa using inside
  have kept : (!word.isEmpty) = true := by simpa using nonempty
  cases after with
  | nil => simp [words, List.splitOnP_eq_singleton run, nonempty]
  | cons c after =>
      have separates : (!inName c) = true := by simp [stops c rfl]
      have here := List.splitOnP_append_cons_of_forall_mem run c separates after
      have none := @List.splitOnP_append_cons_of_forall_mem _ (!inName ·) [] (by simp) c
        separates after
      rw [List.nil_append] at none
      simp [words, here, none, nonempty]

theorem words_skip {marks : List Char} (outside : marks.all (!inName ·) = true)
    (after : List Char) : words (marks ++ after) = words after := by
  induction marks with
  | nil => rfl
  | cons c marks ih =>
      rw [List.all_cons, Bool.and_eq_true] at outside
      obtain ⟨separates, outside⟩ := outside
      have none := @List.splitOnP_append_cons_of_forall_mem _ (!inName ·) [] (by simp) c
        separates (marks ++ after)
      rw [List.nil_append] at none
      have later := ih outside
      simp only [words] at later ⊢
      rw [List.cons_append, none]
      simpa using later

mutual
def Member.atoms : Member → List String
  | .builtin type => [type.text]
  | .declared name => [name]
  | .array element => typeAtoms element

def typeAtoms : List Member → List String
  | [] => []
  | member :: rest => member.atoms ++ typeAtoms rest
end

mutual
theorem words_memberText {after : List Char} (stops : ∀ c ∈ after.head?, inName c = false) :
    (member : Member) → (∀ name ∈ member.names, isIdentifierName name = true) →
      words (member.text.toList ++ after) = member.atoms.map String.toList ++ words after
  | .builtin type, _ => by
      rw [Member.text, Member.atoms]
      cases type <;> exact words_append (by decide) (List.all_eq_true.mp (by decide)) stops
  | .declared name, named => by
      have identifier := named name List.mem_cons_self
      rw [Member.text, Member.atoms]
      exact words_append (Text.ne_empty_of_identifier identifier)
        (Text.continues_of_mem_identifier identifier) stops
  | .array element, named => by
      have closed {marks : List Char} (outside : marks.all (!inName ·) = true)
          (opens : marks.head?.any (!inName ·) = true) :
          words ((" | ".intercalate (memberTexts element)).toList ++ (marks ++ after)) =
            (typeAtoms element).map String.toList ++ words after := by
        rw [words_memberTexts (Text.stops_of_separator opens after) element named,
          words_skip outside]
      rw [Member.text, Member.atoms]
      split
      · simp only [String.toList_append, List.append_assoc]
        exact (words_skip (by decide) _).trans (closed (by decide) (by decide))
      · rw [String.toList_append, List.append_assoc]
        exact closed (by decide) (by decide)

theorem words_memberTexts {after : List Char} (stops : ∀ c ∈ after.head?, inName c = false) :
    (members : List Member) → (∀ name ∈ typeNames members, isIdentifierName name = true) →
      words ((" | ".intercalate (memberTexts members)).toList ++ after) =
        (typeAtoms members).map String.toList ++ words after
  | [], _ => by
      rw [memberTexts, typeAtoms]
      rfl
  | [member], named => by
      rw [typeNames, typeNames, List.append_nil] at named
      rw [memberTexts, memberTexts, typeAtoms, typeAtoms, List.append_nil,
        String.intercalate_singleton]
      exact words_memberText stops member named
  | member :: next :: rest, named => by
      rw [typeNames, List.forall_mem_append] at named
      have later := words_memberTexts stops (next :: rest) named.2
      have separator := Text.stops_of_separator (by decide : " | ".toList.head?.any (!inName ·) = true)
        ((" | ".intercalate (memberTexts (next :: rest))).toList ++ after)
      have split : (" | ".intercalate (memberTexts (member :: next :: rest))).toList ++ after =
          member.text.toList ++
            (" | ".toList ++ ((" | ".intercalate (memberTexts (next :: rest))).toList ++ after)) := by
        simp [memberTexts]
      rw [split, words_memberText separator member named.1, words_skip (by decide), later,
        ← List.append_assoc, ← List.map_append]
      rfl
end

theorem atoms_typeText {type : TypeExpr}
    (named : ∀ name ∈ typeNames type, isIdentifierName name = true) :
    atoms (typeText type) = typeAtoms type := by
  have read := @words_memberTexts [] (by simp) type named
  rw [List.append_nil] at read
  have ofList : String.ofList ∘ String.toList = id := funext fun _ => String.ofList_toList
  rw [atoms, typeText, read, show words [] = [] from rfl, List.append_nil, List.map_map, ofList,
    List.map_id]

def Builtin.all : List String := ["string", "number", "boolean", "any", "null"]

/-- What a word of a type stands for, in a file that exports these names. -/
inductive AtomInScope (exported : List String) (atom : String) : Prop where
  | builtin : atom ∈ Builtin.all → atom ∉ exported → AtomInScope exported atom
  | declared : exported.count atom = 1 → AtomInScope exported atom

/-- The text is made of words in scope, and of marks between them. -/
structure TypeInScope (exported : List String) (type : String) : Prop where
  atoms : ∀ atom ∈ atoms type, AtomInScope exported atom
  marks : ∀ c ∈ type.toList, inName c = true ∨ c ∈ " |()[]".toList

/-- What a row says of its property, behind the name, in a file that exports these names. -/
def TypedInScope (exported : List String) (row : Row) : Prop :=
  ∃ type, row.rest = ": " ++ type ++ ";" ∧ TypeInScope exported type

/-- The rows have different names, and these stand for the given ones, in order. -/
structure NamesRows (names : List String) (rows : List Row) : Prop where
  read : rows.map (fun row => propertyKey? row.printed) = names.map some
  distinct : (rows.map Row.printed).Nodup

/-- The block of a type, in a file that exports these names. -/
inductive Prints (exported : List String) : EnumStyle → TypeDecl → Block → Prop where
  | enum {enum : EnumType} {block : Block} : block.keyword = "enum" → block.name = enum.name →
      NamesRows (enum.cases.map EnumCase.name) block.rows →
      Prints exported .enum (.enum enum) block
  | literalUnion {enum : EnumType} {block : Block} : block.keyword = "type" →
      block.name = enum.name → block.rows = [] → Prints exported .unionType (.enum enum) block
  | object {style : EnumStyle} {record : RecordType} {block : Block} : block.keyword = "type" →
      block.name = record.name → NamesRows (record.fields.map Field.key) block.rows →
      (∀ row ∈ block.rows, TypedInScope exported row) →
      Prints exported style (.record record) block

structure WellScoped (model : Model) (style : EnumStyle) (blocks : List Block) : Prop where
  printed : List.Forall₂ (Prints (blocks.map Block.name) style) model.decls blocks
  distinct : (blocks.map Block.name).Nodup
  declarable : ∀ name ∈ blocks.map Block.name, isTypeIdentifier name = true

theorem NamesRows.of_distinct {names : List String} {rows : List Row}
    (printed : rows.map Row.printed = names.map propertyName) (distinct : names.Nodup) :
    NamesRows names rows := by
  have read : rows.map (fun row => propertyKey? row.printed) = names.map some := by
    rw [← Function.comp_def, ← List.map_map, printed, List.map_map]
    exact List.map_congr_left fun name _ => propertyKey?_propertyName name
  refine ⟨read, ?_⟩
  have distinctRead : ((rows.map Row.printed).map propertyKey?).Nodup := by
    rw [List.map_map, Function.comp_def, read]
    exact distinct.map fun _ _ => Option.some.inj
  exact List.Nodup.of_map _ distinctRead

mutual
theorem mem_memberAtoms {atom : String} :
    (member : Member) → atom ∈ member.atoms → atom ∈ Builtin.all ∨ atom ∈ member.names
  | .builtin type, inside => by
      cases List.mem_singleton.mp inside
      exact .inl (by cases type <;> decide)
  | .declared _, inside => .inr inside
  | .array element, inside => mem_typeAtoms element inside

theorem mem_typeAtoms {atom : String} :
    (members : List Member) → atom ∈ typeAtoms members →
      atom ∈ Builtin.all ∨ atom ∈ typeNames members
  | [], inside => nomatch inside
  | member :: rest, inside => by
      rw [typeNames, List.mem_append]
      rcases List.mem_append.mp inside with first | later
      · exact (mem_memberAtoms member first).imp_right .inl
      · exact (mem_typeAtoms rest later).imp_right .inr
end

theorem not_isTypeIdentifier_builtin {name : String} (builtin : name ∈ Builtin.all) :
    isTypeIdentifier name = false := by
  have reserved : ∀ name ∈ Builtin.all, isTypeIdentifier name = false := by decide +kernel
  exact reserved name builtin

theorem allowsTypes_atoms :
    AllowsTypes fun c => inName c || " |()[]".toList.contains c where
  marks c member := Bool.or_eq_true_iff.mpr (.inr (List.contains_iff_mem.mpr member))
  builtins type := by
    cases type <;> exact List.all_eq_true.mp (by decide)

/-- The scope of a file: the names it exports, none of them twice and none of them builtin. -/
structure Exports (exported : List String) : Prop where
  distinct : exported.Nodup
  declarable : ∀ name ∈ exported, isTypeIdentifier name = true

namespace Exports

variable {exported : List String}

theorem typeInScope (exports : Exports exported) {type : TypeExpr}
    (closed : ∀ name ∈ typeNames type, name ∈ exported) :
    TypeInScope exported (typeText type) := by
  have named : ∀ name ∈ typeNames type, isIdentifierName name = true :=
    fun name member => isIdentifierName_of_type (exports.declarable name (closed name member))
  constructor
  · rw [atoms_typeText named]
    intro atom inside
    rcases mem_typeAtoms type inside with builtin | referred
    · refine .builtin builtin fun hidden => ?_
      have reserved := not_isTypeIdentifier_builtin builtin
      simp [exports.declarable atom hidden] at reserved
    · exact .declared (List.count_eq_one_of_mem exports.distinct (closed atom referred))
  · intro c member
    have allowed := typeText_all allowsTypes_atoms (fun name referred c inside => by
      have continues : inName c = true := Text.continues_of_mem_identifier (named name referred) c inside
      simp [continues]) c member
    simpa [List.contains_iff_mem] using allowed

end Exports

section

variable {model : Model} {style : EnumStyle} {decl : TypeDecl} {declaration : Declaration}

theorem Laid.name_eq (laid : Laid model style decl declaration) :
    declaration.name = decl.name := by
  cases laid <;> rfl

theorem Laid.isTypeIdentifier (laid : Laid model style decl declaration) :
    isTypeIdentifier decl.name = true := by
  cases laid with
  | enum accepted _ => exact accepted
  | literalUnion accepted => exact accepted
  | object accepted _ => exact accepted

theorem exports_of_laid {declarations : List Declaration}
    (laid : List.Forall₂ (Laid model style) model.decls declarations) :
    Exports (model.decls.map TypeDecl.name) where
  distinct := model.distinctNames
  declarable name member := by
    obtain ⟨decl, declared, rfl⟩ := List.mem_map.mp member
    obtain ⟨_, _, laidDecl⟩ := forall₂_exists_left laid declared
    exact laidDecl.isTypeIdentifier

theorem Laid.prints (exports : Exports (model.decls.map TypeDecl.name))
    (declared : decl ∈ model.decls) (laid : Laid model style decl declaration) :
    Prints (model.decls.map TypeDecl.name) style decl declaration.block := by
  have wellFormed := (validate_accepts_iff model.decls).mp model.valid
  cases laid with
  | @enum enum _ _ =>
      refine .enum rfl rfl (.of_distinct ?_ (wellFormed.enums enum declared).distinctNames)
      simp [Declaration.block, Declaration.rows, Row.ofMember, EnumMember.ofCase, Function.comp_def]
  | literalUnion _ => exact .literalUnion rfl rfl rfl
  | @object _ record properties _ related =>
      refine .object rfl rfl (.of_distinct ?_ (wellFormed.records record declared).distinctKeys) ?_
      · have keys : properties.map Property.key = record.fields.map Field.key :=
          (forall₂_map_eq_iff.mp (related.imp fun _ _ lays => lays.key_eq.symm)).symm
        rw [← keys]
        simp [Declaration.block, Declaration.rows, Row.ofProperty, Function.comp_def]
      · intro row member
        obtain ⟨property, inside, rfl⟩ := List.mem_map.mp member
        obtain ⟨field, _, lays⟩ := forall₂_exists_right related inside
        refine ⟨typeText property.type, rfl, exports.typeInScope fun name referred => ?_⟩
        obtain ⟨decl, there, named⟩ :=
          (model.declares_iff name).mp (fieldType_declares lays.typed referred)
        exact List.mem_map.mpr ⟨decl, there, named⟩

end

/-- A TypeScript file that is generated exports every name once.  Its members are called like
the cases and keys of the schema, and its types are made of builtin words and of names that
it exports. -/
theorem generate_typeScript_wellScoped {model : Model} {options : TypeScriptOptions}
    {generated : GeneratedFile}
    (success : generate model (.typescript options) = .ok generated) :
    WellScoped model options.enumStyle (outline generated.content) := by
  obtain ⟨file, laid, rfl⟩ := generate_typeScript_eq_ok_iff.mp success
  have related := layFile_eq_ok_iff.mp laid
  have exports := exports_of_laid related
  have names : (file.declarations.map Declaration.block).map Block.name =
      model.decls.map TypeDecl.name := by
    rw [List.map_map]
    exact (forall₂_map_eq_iff.mp (related.imp fun _ _ lays => lays.name_eq.symm)).symm
  rw [outline_text (layFile_printable laid)]
  refine ⟨?_, names ▸ exports.distinct, names ▸ exports.declarable⟩
  rw [names, List.forall₂_map_right_iff]
  have declared : List.Forall₂ (fun decl declaration => decl ∈ model.decls ∧
      Laid model options.enumStyle decl declaration) model.decls file.declarations :=
    (List.forall₂_and_left _ _).mpr ⟨fun _ member => member, related⟩
  exact declared.imp fun _ _ both => both.2.prints exports both.1

theorem poll_wellScoped :
    ∃ generated, generate poll (.typescript {}) = .ok generated ∧
      WellScoped poll .enum (outline generated.content) :=
  ⟨_, generate_poll, generate_typeScript_wellScoped generate_poll⟩

end WireSchema.TypeScript
