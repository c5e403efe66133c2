import WireSchema.Proofs.Number.Denoted
import WireSchema.Proofs.Schema.WellFormed
import WireSchema.Proofs.TypeScript.Layout

namespace WireSchema.TypeScript

/-! The numbers that the literals of an enum denote.

A schema has integers of 64 bits and TypeScript has doubles.  Every value is printed digit by
digit, whether it is a double or not.  A value that is one is denoted by its literal, and the
literal of any other value denotes a neighbour, which may be the value of another case.
-/

open Number (IsDouble denoted?)

/-- The line of a case whose value is printed as `literal`. -/
def caseLine (case : EnumCase) (literal : String) : String :=
  "  " ++ propertyName case.name ++ " = " ++ literal ++ ",\n"

/-- The declaration of an enum whose values are printed as `literals`. -/
def enumText (enum : EnumType) : EnumStyle → (literals : List String) → String
  | .enum, [] => "export enum " ++ enum.name ++ " \x7b\x7d\n"
  | .enum, literals =>
      "export enum " ++ enum.name ++ " \x7b\n" ++
        String.join (List.zipWith caseLine enum.cases literals) ++ "\x7d\n"
  | .unionType, [] => "export type " ++ enum.name ++ " = never;\n"
  | .unionType, literals =>
      "export type " ++ enum.name ++ " = " ++ " | ".intercalate literals ++ ";\n"

theorem memberLines_eq (cases : List EnumCase) :
    (cases.map EnumMember.ofCase).map EnumMember.line =
      List.zipWith caseLine cases (cases.map fun case => literal case.value) := by
  rw [List.map_map, List.zipWith_map_right, List.zipWith_self]
  rfl

/-- Laying out an enum does not ask for the model it belongs to. -/
theorem layEnum_eq_ok_iff_laid {style : EnumStyle} {enum : EnumType} {declaration : Declaration} :
    layEnum style enum = .ok declaration ↔ Laid ⟨[], rfl⟩ style (.enum enum) declaration :=
  layEnum_eq_ok_iff

theorem text_of_laid {style : EnumStyle} {enum : EnumType} {declaration : Declaration}
    (laid : layEnum style enum = .ok declaration) :
    declaration.text = enumText enum style (enum.cases.map fun case => literal case.value) := by
  have form := layEnum_eq_ok_iff_laid.mp laid
  obtain ⟨name, backing, cases⟩ := enum
  cases form with
  | enum _ _ =>
      cases cases with
      | nil => rfl
      | cons case rest =>
          exact congrArg (fun lines : List String =>
            "export enum " ++ name ++ " \x7b\n" ++ String.join lines ++ "\x7d\n")
            (memberLines_eq (case :: rest))
  | literalUnion _ =>
      cases cases with
      | nil => rfl
      | cons case rest =>
          exact congrArg (fun literals : List String =>
            "export type " ++ name ++ " = " ++ " | ".intercalate literals ++ ";\n")
            List.map_map

/-- The literal denotes a number, and that is the value of the case if it is a double. -/
def DenotesCase (case : EnumCase) (literal : String) : Prop :=
  ∃ value number, case.value = .integer value ∧ denoted? literal.toList = some number ∧
    (number = value.toInt ↔ IsDouble value.toInt)

theorem denotesCase_literal {case : EnumCase} (integral : case.value.backing = .integer) :
    DenotesCase case (literal case.value) := by
  obtain ⟨name, value⟩ := case
  cases value with
  | string text => cases integral
  | integer value =>
      have size : (value.toInt.natAbs : ℚ) < 2 ^ 1023 := by
        have low := value.le_toInt
        have high := value.toInt_lt
        have small : value.toInt.natAbs ≤ 2 ^ 63 := by omega
        calc (value.toInt.natAbs : ℚ) ≤ 2 ^ 63 := by exact_mod_cast small
          _ < 2 ^ 1023 := pow_lt_pow_right₀ one_lt_two (by decide)
      obtain ⟨number, denoted, exact⟩ := Number.toString_denotes size
      exact ⟨value, number, rfl, denoted, exact⟩

theorem denoted_nodup {enum : EnumType} (wellFormed : enum.WellFormed)
    (integral : enum.backing = .integer)
    (doubles : ∀ case ∈ enum.cases, ∀ value, case.value = .integer value → IsDouble value.toInt) :
    (enum.cases.map fun case => denoted? (literal case.value).toList).Nodup := by
  have exact : List.Forall₂ (fun value denoted =>
      ∃ whole : Int64, value = .integer whole ∧ denoted = some (whole.toInt : ℚ))
      (enum.cases.map EnumCase.value)
      (enum.cases.map fun case => denoted? (literal case.value).toList) := by
    rw [List.forall₂_map_left_iff, List.forall₂_map_right_iff, List.forall₂_same]
    intro case member
    obtain ⟨value, number, is, denoted, same⟩ :=
      denotesCase_literal ((wellFormed.backed case member).trans integral)
    rw [same.mpr (doubles case member value is)] at denoted
    exact ⟨value, is, denoted⟩
  refine nodup_of_forall₂ exact wellFormed.distinctValues ?_
  intro left right denoted ofLeft ofRight
  obtain ⟨whole, rfl, leftDenoted⟩ := ofLeft
  obtain ⟨other, rfl, rightDenoted⟩ := ofRight
  rw [leftDenoted, Option.some.injEq, Int.cast_inj, Int64.toInt_inj] at rightDenoted
  rw [rightDenoted]

/-- Every literal of an enum denotes the value of its case, unless that is no double.  Where
all values are doubles, the literals denote as many numbers as there are cases. -/
theorem layEnum_numbers {style : EnumStyle} {enum : EnumType} {declaration : Declaration}
    (wellFormed : enum.WellFormed) (integral : enum.backing = .integer)
    (laid : layEnum style enum = .ok declaration) :
    ∃ literals, declaration.text = enumText enum style literals ∧
      List.Forall₂ DenotesCase enum.cases literals ∧
      ((∀ case ∈ enum.cases, ∀ value, case.value = .integer value → IsDouble value.toInt) →
        (literals.map fun literal => denoted? literal.toList).Nodup) := by
  refine ⟨enum.cases.map fun case => literal case.value, text_of_laid laid, ?_, fun doubles => ?_⟩
  · rw [List.forall₂_map_right_iff, List.forall₂_same]
    exact fun case member => denotesCase_literal ((wellFormed.backed case member).trans integral)
  · rw [List.map_map]
    exact denoted_nodup wellFormed integral doubles

/-- The last value is the largest below which all whole numbers are doubles. -/
def levels : EnumType :=
  ⟨"Level", .integer,
    [⟨"low", .integer (-3)⟩, ⟨"none", .integer 0⟩, ⟨"all", .integer 9007199254740992⟩]⟩

theorem levels_numbers :
    ∃ declaration literals, layEnum .enum levels = .ok declaration ∧
      declaration.text = enumText levels .enum literals ∧
      List.Forall₂ DenotesCase levels.cases literals ∧
      (literals.map fun literal => denoted? literal.toList).Nodup := by
  have laid : layEnum .enum levels = .ok (.enum "Level" (levels.cases.map EnumMember.ofCase)) :=
    layEnum_eq_ok_iff_laid.mpr (.enum (by decide) (by decide +kernel))
  have doubles : ∀ case ∈ levels.cases, ∀ value, case.value = .integer value →
      IsDouble value.toInt := by
    simp only [levels, List.forall_mem_cons, CaseValue.integer.injEq, forall_eq']
    exact ⟨Number.isDouble_of_natAbs_le (by decide), Number.isDouble_of_natAbs_le (by decide),
      Number.isDouble_of_natAbs_le (by decide), by simp⟩
  obtain ⟨literals, text, denotes, distinct⟩ :=
    layEnum_numbers ⟨by decide, by decide, by decide, by decide⟩ rfl laid
  exact ⟨_, literals, laid, text, denotes, distinct doubles⟩

/-- Two values in a row that no double tells apart. -/
def crowded : EnumType :=
  ⟨"Big", .integer, [⟨"A", .integer 9007199254740992⟩, ⟨"B", .integer 9007199254740993⟩]⟩

/-- The enum is laid out in both styles, and its two literals denote one number. -/
theorem crowded_numbers :
    crowded.WellFormed ∧ crowded.backing = .integer ∧
      ∀ style, ∃ declaration, layEnum style crowded = .ok declaration ∧
        declaration.text = enumText crowded style ["9007199254740992", "9007199254740993"] ∧
        ∃ number, denoted? "9007199254740992".toList = some number ∧
          denoted? "9007199254740993".toList = some number := by
  have lower := Number.denoted?_toString
    (by decide +kernel : Number.nearest? (9007199254740992 : Int).natAbs 1 = some ⟨2 ^ 52, 1⟩)
  have upper := Number.denoted?_toString
    (by decide +kernel : Number.nearest? (9007199254740993 : Int).natAbs 1 = some ⟨2 ^ 52, 1⟩)
  have literals : (crowded.cases.map fun case => literal case.value) =
      ["9007199254740992", "9007199254740993"] := by
    decide +kernel
  have laid (style : EnumStyle) : ∃ declaration, layEnum style crowded = .ok declaration := by
    cases style with
    | enum =>
        exact ⟨_, layEnum_eq_ok_iff_laid.mpr (.enum (by decide) (by decide +kernel))⟩
    | unionType => exact ⟨_, layEnum_eq_ok_iff_laid.mpr (.literalUnion (by decide))⟩
  refine ⟨⟨by decide, by decide, by decide, by decide⟩, rfl, fun style => ?_⟩
  obtain ⟨declaration, success⟩ := laid style
  exact ⟨declaration, success, literals ▸ text_of_laid success, _, lower, upper⟩

end WireSchema.TypeScript
