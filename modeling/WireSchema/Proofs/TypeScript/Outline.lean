import WireSchema.Proofs.TypeScript.Literal

namespace WireSchema.TypeScript

/-! The declarations of a TypeScript file, read off its text.

Blank lines keep the declarations apart, a line that opens with `export` says what is
declared, and the lines below it that are set in hold one member each.
-/

/-- The name of a member as it is printed, and what follows it on its line. -/
structure Row where
  printed : String
  rest : String
deriving DecidableEq

structure Block where
  keyword : String
  name : String
  rows : List Row
deriving DecidableEq

namespace Row

def ofMember (member : EnumMember) : Row :=
  ⟨propertyName member.name, " = " ++ literal member.value ++ ","⟩

def ofProperty (property : Property) : Row :=
  ⟨propertyName property.key, ": " ++ typeText property.type ++ ";"⟩

end Row

namespace Declaration

def rows : Declaration → List Row
  | .enum _ members => members.map Row.ofMember
  | .literalUnion _ _ => []
  | .object _ properties => properties.map Row.ofProperty

def block (declaration : Declaration) : Block :=
  ⟨declaration.keyword, declaration.name, declaration.rows⟩

end Declaration

def readRow? : List Char → Option Row
  | ' ' :: ' ' :: content =>
      some ⟨String.ofList (splitName content).1, String.ofList (splitName content).2⟩
  | _ => none

def readBlock? : List (List Char) → Option Block
  | ('e' :: 'x' :: 'p' :: 'o' :: 'r' :: 't' :: ' ' :: words) :: later =>
      let keyword := Text.splitWord words
      let name := Text.splitWord keyword.2
      some ⟨String.ofList keyword.1, String.ofList name.1, later.filterMap readRow?⟩
  | _ => none

def outline (text : String) : List Block :=
  ((Text.lines text.toList).splitOn []).filterMap readBlock?

theorem readRow?_named (name : String) {rest : String} {c : Char}
    (opens : rest.toList.head? = some c) (stops : inName c = false) :
    readRow? ("  " ++ propertyName name ++ rest).toList = some ⟨propertyName name, rest⟩ := by
  have line : ("  " ++ propertyName name ++ rest).toList =
      ' ' :: ' ' :: ((propertyName name).toList ++ rest.toList) := by
    simp
  have ends : ∀ c ∈ rest.toList.head?, inName c = false := by
    rw [opens]
    intro other same
    cases same
    exact stops
  rw [line, readRow?, splitName_propertyName name ends, String.ofList_toList, String.ofList_toList]

theorem readRow?_member (member : EnumMember) :
    readRow? member.row = some (Row.ofMember member) := by
  have line : member.row =
      ("  " ++ propertyName member.name ++ (" = " ++ literal member.value ++ ",")).toList := by
    simp only [EnumMember.row, String.append_assoc]
  exact line ▸ readRow?_named member.name (by simp) (by decide : inName ' ' = false)

theorem readRow?_property (property : Property) :
    readRow? property.row = some (Row.ofProperty property) := by
  have line : property.row =
      ("  " ++ propertyName property.key ++ (": " ++ typeText property.type ++ ";")).toList := by
    simp only [Property.row, String.append_assoc]
  exact line ▸ readRow?_named property.key (by simp) (by decide : inName ':' = false)

theorem readRows (declaration : Declaration) :
    declaration.laterLines.filterMap readRow? = declaration.rows := by
  have members (members : List EnumMember) :
      (members.map EnumMember.row).filterMap readRow? = members.map Row.ofMember := by
    rw [List.filterMap_map, ← List.filterMap_eq_map]
    exact List.filterMap_congr fun member _ => readRow?_member member
  have properties (properties : List Property) :
      (properties.map Property.row).filterMap readRow? = properties.map Row.ofProperty := by
    rw [List.filterMap_map, ← List.filterMap_eq_map]
    exact List.filterMap_congr fun property _ => readRow?_property property
  match declaration with
  | .enum _ [] | .literalUnion _ _ | .object _ [] => rfl
  | .enum _ (_ :: _) =>
      rw [Declaration.laterLines, List.filterMap_append, members]
      exact List.append_nil _
  | .object _ (_ :: _) =>
      rw [Declaration.laterLines, List.filterMap_append, properties]
      exact List.append_nil _

theorem readBlock?_lines {declaration : Declaration}
    (named : isIdentifierName declaration.name = true) :
    readBlock? declaration.lines = some declaration.block := by
  have word : ' ' ∉ declaration.keyword.toList := by
    cases declaration <;> simp [Declaration.keyword]
  have solid : ' ' ∉ declaration.name.toList := fun member =>
    absurd (Text.continues_of_mem_identifier named ' ' member) (by decide)
  have nameStarts : (declaration.name.toList ++ List.replicate 1 ' ' ++
      declaration.opening.toList).head? ≠ some ' ' := by
    obtain ⟨first, rest, form⟩ :=
      List.exists_cons_of_ne_nil (Text.ne_empty_of_identifier named)
    have blank : first ≠ ' ' := fun same => solid (by simp [form, same])
    simp [form, blank]
  have openingStarts : declaration.opening.toList.head? ≠ some ' ' := by
    rcases declaration with ⟨_, _ | _⟩ | ⟨_, _ | _⟩ | ⟨_, _ | _⟩ <;> simp [Declaration.opening]
  have line : declaration.firstLine = 'e' :: 'x' :: 'p' :: 'o' :: 'r' :: 't' :: ' ' ::
      (declaration.keyword.toList ++ List.replicate 1 ' ' ++
        (declaration.name.toList ++ List.replicate 1 ' ' ++ declaration.opening.toList)) := by
    simp [Declaration.firstLine]
  rw [Declaration.lines, line, readBlock?, Text.splitWord_append 0 word nameStarts,
    Text.splitWord_append 0 solid openingStarts, readRows]
  simp [Declaration.block]

/-- Blocks without blank lines, a blank line above each and one below the last. -/
theorem splitOn_blocks {first : List (List Char)} {blocks : List (List (List Char))}
    (full : ∀ block ∈ first :: blocks, [] ∉ block) :
    (first ++ blocks.flatMap ([] :: ·) ++ [[]]).splitOn [] = first :: blocks ++ [[]] := by
  induction blocks generalizing first with
  | nil =>
      rw [List.flatMap_nil, List.append_nil,
        List.splitOn_append_cons_self_of_not_mem (full first List.mem_cons_self)]
      rfl
  | cons block later ih =>
      rw [List.forall_mem_cons] at full
      have following := ih full.2
      rw [List.flatMap_cons, List.append_assoc, List.append_assoc, List.cons_append,
        List.splitOn_append_cons_self_of_not_mem full.1, ← List.append_assoc, following]
      rfl

/-- The text of a printable file says what its declarations say. -/
theorem outline_text {file : File} (printable : file.Printable) :
    outline file.text = file.declarations.map Declaration.block := by
  have full : ∀ block ∈ File.bannerLines :: file.declarations.map Declaration.lines,
      [] ∉ block := by
    rw [List.forall_mem_cons, List.forall_mem_map]
    exact ⟨by decide, fun declaration _ => declaration.nil_not_mem_lines⟩
  have blocks : (file.declarations.map Declaration.lines).filterMap readBlock? =
      file.declarations.map Declaration.block := by
    rw [List.filterMap_map, ← List.filterMap_eq_map]
    exact List.filterMap_congr fun declaration member =>
      readBlock?_lines (printable declaration member).name
  have banner : readBlock? File.bannerLines = none := by decide +kernel
  rw [outline, File.lines_toList_text printable, File.lines,
    ← List.flatMap_map Declaration.lines ([] :: ·), splitOn_blocks full, List.filterMap_append,
    List.filterMap_cons_none banner, blocks]
  exact List.append_nil _

example : outline "\nexport enum Role \x7b\n  guest = \"a b\",\n  \"a guest\" = 1,\n\x7d\n" =
    [⟨"enum", "Role", [⟨"guest", " = \"a b\","⟩, ⟨"\"a guest\"", " = 1,"⟩]⟩] := by
  decide +kernel

end WireSchema.TypeScript
