import Mathlib.Tactic.FieldSimp
import WireSchema.Json.Reader
import WireSchema.Proofs.Number.Canonical
import WireSchema.Proofs.Number.Scaled

namespace WireSchema.Json

/-! The numerals of JSON and what the reader makes of them.

A numeral ends where nothing follows that could belong to it.  The reader takes a text exactly
when it opens with such a numeral.  A numeral has a value, which is a fraction whenever it looks
like one.  The reader keeps the value if the numeral has only a whole part, is not minus zero and
fits 64 bits with or without a sign.  Of any other numeral it makes a double, unless that goes out
of range.
-/

structure IsRun (digits : List Char) : Prop where
  nonempty : digits ≠ []
  isDigit : ∀ c ∈ digits, c.isDigit = true

structure Exponent where
  mark : Char
  sign : List Char
  digits : List Char
  isMark : mark = 'e' ∨ mark = 'E'
  isSign : sign = [] ∨ sign = ['+'] ∨ sign = ['-']
  isRun : IsRun digits

structure Numeral where
  negative : Bool
  whole : List Char
  fraction : Option (List Char)
  exponent : Option Exponent
  isWhole : Number.IsWhole whole
  isRun : ∀ digits ∈ fraction, IsRun digits

def Exponent.text (exponent : Exponent) : List Char :=
  exponent.mark :: (exponent.sign ++ exponent.digits)

def Exponent.value (exponent : Exponent) : Int :=
  if exponent.sign = ['-'] then -(Number.digitsValue exponent.digits : Int)
  else Number.digitsValue exponent.digits

namespace Numeral

def fractionText : Option (List Char) → List Char
  | none => []
  | some digits => '.' :: digits

def exponentText (exponent : Option Exponent) : List Char := (exponent.map Exponent.text).getD []

def signText (negative : Bool) : List Char := if negative then ['-'] else []

/-- The numeral as it is written. -/
def text (numeral : Numeral) : List Char :=
  signText numeral.negative ++ (numeral.whole ++
    (fractionText numeral.fraction ++ exponentText numeral.exponent))

/-- The power of ten that the part before it is multiplied with. -/
def power (numeral : Numeral) : Int := (numeral.exponent.map Exponent.value).getD 0

/-- What the numeral stands for when its sign is left out. -/
def magnitude (numeral : Numeral) : ℚ :=
  let fraction := numeral.fraction.getD []
  (Number.digitsValue numeral.whole + Number.digitsValue fraction / 10 ^ fraction.length) *
    10 ^ numeral.power

/-- What the numeral stands for. -/
def value (numeral : Numeral) : ℚ :=
  if numeral.negative then -numeral.magnitude else numeral.magnitude

/-- The numeral is a whole part alone, with or without a minus, and not minus zero. -/
structure Integral (numeral : Numeral) : Prop where
  noFraction : numeral.fraction = none
  noExponent : numeral.exponent = none
  notMinusZero : ¬ (numeral.negative = true ∧ numeral.value = 0)

end Numeral

/-- What follows does not belong to the numeral. -/
def Numeral.Ends (numeral : Numeral) (rest : List Char) : Prop :=
  ∀ c ∈ rest.head?, c.isDigit = false ∧
    (numeral.exponent = none → (c ≠ 'e' ∧ c ≠ 'E') ∧ (numeral.fraction = none → c ≠ '.'))

/-- What the reader makes of the numeral, if that does not go out of range. -/
def Numeral.number? (numeral : Numeral) : Option JsonNumber :=
  makeNumber numeral.negative numeral.whole numeral.fraction (numeral.exponent.map Exponent.value)

/-- Text that no numeral runs into. -/
def EndsNumeral (text : List Char) : Prop :=
  ∀ c ∈ text.head?, c.isDigit = false ∧ c ≠ '.' ∧ c ≠ 'e' ∧ c ≠ 'E'

theorem endsNumeral_nil : EndsNumeral [] := by simp [EndsNumeral]

theorem endsNumeral_cons {mark : Char} (isMark : mark ∈ [',', ']', '}']) (rest : List Char) :
    EndsNumeral (mark :: rest) := by
  simp only [List.mem_cons, List.not_mem_nil, or_false] at isMark
  intro c first
  cases first
  rcases isMark with rfl | rfl | rfl <;> decide

theorem EndsNumeral.ends {rest : List Char} (ends : EndsNumeral rest) (numeral : Numeral) :
    numeral.Ends rest := by
  intro c head
  obtain ⟨digit, point, marks⟩ := ends c head
  exact ⟨digit, fun _ => ⟨marks, fun _ => point⟩⟩

theorem Numeral.opens (numeral : Numeral) :
    ∃ first more, numeral.text = first :: more ∧ Number.inNumeral first = true := by
  obtain ⟨first, digits, form⟩ := List.exists_cons_of_ne_nil numeral.isWhole.ne_nil
  have digit := numeral.isWhole.isDigit first (form ▸ List.mem_cons_self)
  rw [text, signText, form]
  split
  · exact ⟨'-', _, rfl, by decide⟩
  · exact ⟨first, _, rfl, by rw [Number.inNumeral, digit, Bool.true_or]⟩

/-- No digit comes next. -/
def StopsRun (rest : List Char) : Prop := ∀ c ∈ rest.head?, c.isDigit = false

section

variable {text digits rest : List Char}

theorem takeDigits_eq_iff :
    takeDigits text = (digits, rest) ↔
      text = digits ++ rest ∧ (∀ c ∈ digits, c.isDigit = true) ∧ StopsRun rest := by
  constructor
  · intro taken
    cases taken
    refine ⟨List.takeWhile_append_dropWhile.symm, fun c => List.mem_takeWhile_imp, fun c head => ?_⟩
    have stops := List.head?_dropWhile_not Char.isDigit text
    rw [head] at stops
    exact stops
  · rintro ⟨rfl, run, stops⟩
    have ends : rest.takeWhile Char.isDigit = [] ∧ rest.dropWhile Char.isDigit = rest := by
      cases rest with
      | nil => exact ⟨rfl, rfl⟩
      | cons c rest => simp [stops c rfl]
    rw [takeDigits, List.takeWhile_append_of_pos run, List.dropWhile_append_of_pos run, ends.1,
      ends.2, List.append_nil]

theorem readWhole_eq_iff :
    readWhole text = some (digits, rest) ↔
      text = digits ++ rest ∧ Number.IsWhole digits ∧ StopsRun rest := by
  constructor
  · intro read
    unfold readWhole at read
    split at read
    · cases read
    · cases read
    · rename_i noDigits noZero
      have taken : takeDigits text = (digits, rest) := Option.some.inj read
      obtain ⟨form, run, stops⟩ := takeDigits_eq_iff.mp taken
      refine ⟨form, ?_, stops⟩
      cases digits with
      | nil => exact (noDigits _ taken).elim
      | cons first more =>
          obtain ⟨firstDigit, moreDigits⟩ := List.forall_mem_cons.mp run
          by_cases zero : first = '0'
          · subst zero
            cases more with
            | nil => exact .zero
            | cons second more => exact (noZero _ _ _ taken).elim
          · exact .digits firstDigit zero moreDigits
  · rintro ⟨form, whole, stops⟩
    have taken := takeDigits_eq_iff.mpr ⟨form, whole.isDigit, stops⟩
    rw [readWhole, taken]
    cases whole with
    | zero => rfl
    | digits _ nonzero _ =>
        split
        · rename_i same
          cases same
        · rename_i same
          cases same
          exact absurd rfl nonzero
        · rfl

theorem takeDigits_run (isRun : IsRun digits) (stops : StopsRun rest) :
    ∃ first more, takeDigits (digits ++ rest) = (first :: more, rest) ∧ first :: more = digits := by
  obtain ⟨first, more, form⟩ := List.exists_cons_of_ne_nil isRun.nonempty
  exact ⟨first, more, form ▸ takeDigits_eq_iff.mpr ⟨rfl, isRun.isDigit, stops⟩, form.symm⟩

theorem readFraction_eq_iff {fraction : Option (List Char)} :
    readFraction text = some (fraction, rest) ↔
      text = Numeral.fractionText fraction ++ rest ∧ (∀ digits ∈ fraction, IsRun digits) ∧
        ∀ c ∈ rest.head?, if fraction = none then c ≠ '.' else c.isDigit = false := by
  constructor
  · intro read
    unfold readFraction at read
    split at read
    · split at read
      · cases read
      · rename_i noDigits taken
        cases read
        obtain ⟨form, run, stops⟩ := takeDigits_eq_iff.mp taken
        refine ⟨by rw [form]; rfl, ?_, stops⟩
        rintro _ ⟨⟩
        exact ⟨noDigits, run⟩
    · rename_i noPoint
      cases read
      refine ⟨rfl, nofun, fun c head point => ?_⟩
      obtain ⟨more, form⟩ := List.head?_eq_some_iff.mp head
      exact noPoint more (by rw [form, point])
  · rintro ⟨rfl, isRun, ends⟩
    cases fraction with
    | none =>
        rw [Numeral.fractionText, List.nil_append]
        unfold readFraction
        split
        · exact absurd rfl (ends _ rfl)
        · rfl
    | some digits =>
        obtain ⟨first, more, taken, rfl⟩ := takeDigits_run (isRun digits rfl) ends
        simp only [Numeral.fractionText, List.cons_append, readFraction] at taken ⊢
        simp only [taken]

theorem readExponentDigits_eq_iff {negative : Bool} {value : Option Int} :
    readExponentDigits negative text = some (value, rest) ↔
      ∃ digits, text = digits ++ rest ∧ IsRun digits ∧ StopsRun rest ∧
        value = some (if negative then -(Number.digitsValue digits : Int)
          else Number.digitsValue digits) := by
  constructor
  · intro read
    unfold readExponentDigits at read
    split at read
    · cases read
    · rename_i noDigits taken
      cases read
      obtain ⟨form, run, stops⟩ := takeDigits_eq_iff.mp taken
      exact ⟨_, form, ⟨noDigits, run⟩, stops, rfl⟩
  · rintro ⟨digits, rfl, isRun, stops, rfl⟩
    obtain ⟨first, more, taken, rfl⟩ := takeDigits_run isRun stops
    simp only [readExponentDigits, taken]

theorem readExponent_unsigned {mark first : Char} (isMark : mark = 'e' ∨ mark = 'E')
    (digit : first.isDigit = true) (more : List Char) :
    readExponent (mark :: first :: more) = readExponentDigits false (first :: more) := by
  have noSign (sign : Char) (isSign : sign.isDigit = false) : first ≠ sign := by
    intro same
    rw [same, isSign] at digit
    cases digit
  have noPlus := noSign '+' (by decide)
  have noMinus := noSign '-' (by decide)
  cases isMark with
  | inl small => simp [small, readExponent, noPlus, noMinus]
  | inr capital => simp [capital, readExponent, noPlus, noMinus]

theorem readExponent_text (exponent : Option Exponent) (stops : StopsRun rest)
    (ends : exponent = none → ∀ c ∈ rest.head?, c ≠ 'e' ∧ c ≠ 'E') :
    readExponent (Numeral.exponentText exponent ++ rest) =
      some (exponent.map Exponent.value, rest) := by
  cases exponent with
  | none =>
      have apart : ∀ after, rest ≠ 'e' :: after ∧ rest ≠ 'E' :: after := by
        intro after
        constructor
        · rintro rfl
          exact absurd rfl (ends rfl _ rfl).1
        · rintro rfl
          exact absurd rfl (ends rfl _ rfl).2
      rw [Numeral.exponentText, Option.map_none, Option.getD_none, List.nil_append]
      unfold readExponent
      split
      · exact absurd rfl (apart _).1
      · exact absurd rfl (apart _).2
      · exact absurd rfl (apart _).1
      · exact absurd rfl (apart _).2
      · exact absurd rfl (apart _).1
      · exact absurd rfl (apart _).2
      · rfl
  | some exponent =>
      obtain ⟨mark, sign, digits, isMark, isSign, isRun⟩ := exponent
      have read (negative : Bool) : readExponentDigits negative (digits ++ rest) = _ :=
        readExponentDigits_eq_iff.mpr ⟨digits, rfl, isRun, stops, rfl⟩
      simp only [Numeral.exponentText, Option.map_some, Option.getD_some, Exponent.text,
        Exponent.value, List.cons_append, List.append_assoc]
      rcases isSign with rfl | rfl | rfl
      · obtain ⟨first, more, rfl⟩ := List.exists_cons_of_ne_nil isRun.nonempty
        have digit := isRun.isDigit first List.mem_cons_self
        exact (readExponent_unsigned isMark digit (more ++ rest)).trans (read false)
      · rcases isMark with rfl | rfl <;> exact read false
      · rcases isMark with rfl | rfl <;> exact read true

/-- An exponent that is read was written with a mark, a sign or none, and digits. -/
theorem exponent_of_reads {mark : Char} {sign : List Char} {negative : Bool} {value : Option Int}
    (isMark : mark = 'e' ∨ mark = 'E') (isSign : sign = [] ∨ sign = ['+'] ∨ sign = ['-'])
    (isNegative : negative = decide (sign = ['-']))
    (read : readExponentDigits negative text = some (value, rest)) :
    ∃ exponent : Exponent, value = some exponent.value ∧
      mark :: (sign ++ text) = exponent.text ++ rest ∧ StopsRun rest := by
  obtain ⟨digits, rfl, isRun, stops, rfl⟩ := readExponentDigits_eq_iff.mp read
  refine ⟨⟨mark, sign, digits, isMark, isSign, isRun⟩, ?_, ?_, stops⟩
  · simp [isNegative, Exponent.value]
  · simp [Exponent.text]

theorem readExponent_exists {value : Option Int} (read : readExponent text = some (value, rest)) :
    ∃ exponent : Option Exponent, value = exponent.map Exponent.value ∧
      text = Numeral.exponentText exponent ++ rest ∧
      ∀ c ∈ rest.head?, if exponent = none then c ≠ 'e' ∧ c ≠ 'E' else c.isDigit = false := by
  have written {mark : Char} {sign tail : List Char} {negative : Bool}
      (isMark : mark = 'e' ∨ mark = 'E') (isSign : sign = [] ∨ sign = ['+'] ∨ sign = ['-'])
      (isNegative : negative = decide (sign = ['-']))
      (read : readExponentDigits negative tail = some (value, rest)) :
      ∃ exponent : Option Exponent, value = exponent.map Exponent.value ∧
        mark :: (sign ++ tail) = Numeral.exponentText exponent ++ rest ∧
        ∀ c ∈ rest.head?, if exponent = none then c ≠ 'e' ∧ c ≠ 'E' else c.isDigit = false := by
    obtain ⟨exponent, same, form, stops⟩ := exponent_of_reads isMark isSign isNegative read
    exact ⟨some exponent, same, form, stops⟩
  unfold readExponent at read
  split at read
  · exact written (.inl rfl) (.inr (.inr rfl)) (by decide) read
  · exact written (.inr rfl) (.inr (.inr rfl)) (by decide) read
  · exact written (.inl rfl) (.inr (.inl rfl)) (by decide) read
  · exact written (.inr rfl) (.inr (.inl rfl)) (by decide) read
  · exact written (.inl rfl) (.inl rfl) (by decide) read
  · exact written (.inr rfl) (.inl rfl) (by decide) read
  · rename_i noSmall noCapital
    cases read
    refine ⟨none, rfl, rfl, fun c head => ?_⟩
    obtain ⟨more, form⟩ := List.head?_eq_some_iff.mp head
    exact ⟨fun small => noSmall more (by rw [form, small]),
      fun capital => noCapital more (by rw [form, capital])⟩

/-- The reader takes a numeral apart into what it was written from. -/
theorem readNumber_text {numeral : Numeral} (ends : numeral.Ends rest) :
    readNumber (numeral.text ++ rest) = some (numeral.number?, rest) := by
  have stops : StopsRun rest := fun c head => (ends c head).1
  have exponent := readExponent_text numeral.exponent stops
    fun none c head => ((ends c head).2 none).1
  have afterFraction : ∀ c ∈ (Numeral.exponentText numeral.exponent ++ rest).head?,
      c.isDigit = false ∧ (numeral.fraction = none → c ≠ '.') := by
    intro c head
    cases form : numeral.exponent with
    | none =>
        rw [form] at head
        exact ⟨stops c head, ((ends c head).2 form).2⟩
    | some exponent =>
        rw [form] at head
        cases head
        rcases exponent.isMark with small | capital
        · exact ⟨by rw [small]; decide, fun _ => by rw [small]; decide⟩
        · exact ⟨by rw [capital]; decide, fun _ => by rw [capital]; decide⟩
  have fraction : readFraction (Numeral.fractionText numeral.fraction ++
      (Numeral.exponentText numeral.exponent ++ rest)) =
      some (numeral.fraction, Numeral.exponentText numeral.exponent ++ rest) := by
    refine readFraction_eq_iff.mpr ⟨rfl, numeral.isRun, fun c head => ?_⟩
    split
    · rename_i none
      exact (afterFraction c head).2 none
    · exact (afterFraction c head).1
  have afterWhole : StopsRun (Numeral.fractionText numeral.fraction ++
      (Numeral.exponentText numeral.exponent ++ rest)) := by
    intro c head
    cases form : numeral.fraction with
    | none =>
        rw [form] at head
        exact (afterFraction c head).1
    | some digits =>
        rw [form] at head
        cases head
        decide
  have whole := readWhole_eq_iff.mpr ⟨rfl, numeral.isWhole, afterWhole⟩
  have unsigned := Number.digits_append_ne_minus numeral.isWhole.ne_nil numeral.isWhole.isDigit
  rw [Numeral.text, List.append_assoc, List.append_assoc, List.append_assoc]
  cases negative : numeral.negative with
  | true => simp [Numeral.signText, readNumber, whole, fraction, exponent, Numeral.number?, negative]
  | false =>
      simp [Numeral.signText, readNumber, unsigned, whole, fraction, exponent, Numeral.number?,
        negative]

theorem readNumber_eq_iff {number : Option JsonNumber} :
    readNumber text = some (number, rest) ↔
      ∃ numeral : Numeral, text = numeral.text ++ rest ∧ numeral.Ends rest ∧
        number = numeral.number? := by
  constructor
  · intro read
    unfold readNumber at read
    split at read
    rename_i negative unsigned signed
    simp only [Option.bind_eq_bind, Option.bind_eq_some_iff, Prod.exists, Option.some.injEq,
      Prod.mk.injEq] at read
    obtain ⟨whole, afterWhole, readsWhole, fraction, afterFraction, readsFraction, value, _,
      readsExponent, rfl, rfl⟩ := read
    obtain ⟨rfl, isWhole, stopsWhole⟩ := readWhole_eq_iff.mp readsWhole
    obtain ⟨rfl, isRun, stopsFraction⟩ := readFraction_eq_iff.mp readsFraction
    obtain ⟨exponent, rfl, rfl, stopsExponent⟩ := readExponent_exists readsExponent
    refine ⟨⟨negative, whole, fraction, exponent, isWhole, isRun⟩, ?_, ?_, rfl⟩
    · simp only [Numeral.text, List.append_assoc]
      split at signed
      · cases signed
        rfl
      · cases signed
        rfl
    · intro c head
      cases exponent with
      | some exponent => exact ⟨stopsExponent c head, nofun⟩
      | none =>
          have marks := stopsExponent c head
          have point := stopsFraction c head
          cases fraction with
          | some digits => exact ⟨point, fun _ => ⟨marks, nofun⟩⟩
          | none => exact ⟨stopsWhole c head, fun _ => ⟨marks, fun _ => point⟩⟩
  · rintro ⟨numeral, rfl, ends, rfl⟩
    exact readNumber_text ends

end

namespace Numeral

/-- The digits that the reader keeps of the numeral, with their place. -/
def decimal (numeral : Numeral) : Number.Decimal :=
  let gathered := gather numeral.whole (numeral.fraction.getD [])
  { gathered with exponent := gathered.exponent + numeral.power }

/-- The doubles that the reader computes with go out of range. -/
def Overflows (numeral : Numeral) : Prop := numeral.decimal.scaled? = none

/-- The number that the reader has for the numeral is its value, or a double. -/
inductive ReadsAs (numeral : Numeral) : JsonNumber → Prop
  | integer {value : Int} : numeral.Integral → numeral.value = value → leastInteger ≤ value →
      value ≤ greatestInteger → ReadsAs numeral (.integer value)
  | double {negative : Bool} {magnitude : Number.Binary64} :
      (numeral.Integral → ∀ value : Int, numeral.value = value → leastInteger ≤ value →
        ¬ value ≤ greatestInteger) →
      ReadsAs numeral (.double negative magnitude)

/-- The whole part with the sign. -/
def integer (numeral : Numeral) : Int :=
  if numeral.negative then -(Number.digitsValue numeral.whole : Int)
  else Number.digitsValue numeral.whole

theorem value_eq_integer {numeral : Numeral} (noFraction : numeral.fraction = none)
    (noExponent : numeral.exponent = none) : numeral.value = numeral.integer := by
  have magnitude : numeral.magnitude = Number.digitsValue numeral.whole := by
    simp [Numeral.magnitude, power, noFraction, noExponent, Number.digitsValue]
  rw [value, integer, magnitude]
  split
  · push_cast
    rfl
  · push_cast
    rfl

theorem integral_iff {numeral : Numeral} :
    numeral.Integral ↔ numeral.fraction = none ∧ numeral.exponent = none ∧
      ¬ (numeral.negative = true ∧ numeral.integer = 0) := by
  constructor
  · intro integral
    have same := value_eq_integer integral.noFraction integral.noExponent
    refine ⟨integral.noFraction, integral.noExponent, fun minusZero => ?_⟩
    exact integral.notMinusZero ⟨minusZero.1, by rw [same, minusZero.2, Int.cast_zero]⟩
  · intro parts
    obtain ⟨noFraction, noExponent, notMinusZero⟩ := parts
    have same := value_eq_integer noFraction noExponent
    refine ⟨noFraction, noExponent, fun minusZero => notMinusZero ⟨minusZero.1, ?_⟩⟩
    exact_mod_cast same.symm.trans minusZero.2

instance (numeral : Numeral) : Decidable numeral.Integral := decidable_of_iff _ integral_iff.symm

/-- The number is kept when it is whole and fits, and a double is made of it otherwise. -/
theorem number?_eq (numeral : Numeral) :
    numeral.number? =
      if numeral.Integral ∧ leastInteger ≤ numeral.integer ∧ numeral.integer ≤ greatestInteger then
        some (JsonNumber.integer numeral.integer)
      else numeral.decimal.scaled?.bind fun magnitude =>
        some (JsonNumber.double numeral.negative magnitude) := by
  have kept : (numeral.fraction.isNone && (numeral.exponent.map Exponent.value).isNone &&
      !(numeral.negative && numeral.integer == 0) && decide (leastInteger ≤ numeral.integer) &&
      decide (numeral.integer ≤ greatestInteger)) = true ↔
      numeral.Integral ∧ leastInteger ≤ numeral.integer ∧ numeral.integer ≤ greatestInteger := by
    rw [integral_iff]
    simp only [Bool.and_eq_true, Option.isNone_iff_eq_none, Option.map_eq_none_iff,
      Bool.not_eq_true', Bool.and_eq_false_iff, beq_eq_false_iff_ne, decide_eq_true_eq, not_and_or,
      Bool.not_eq_true, ne_eq, and_assoc]
  simp only [← kept]
  rfl

theorem number?_exists {numeral : Numeral} (fits : ¬ numeral.Overflows) :
    ∃ number, numeral.number? = some number ∧ numeral.ReadsAs number := by
  obtain ⟨magnitude, scaled⟩ := Option.ne_none_iff_exists'.mp fits
  rw [number?_eq, scaled]
  split
  · rename_i kept
    have same := value_eq_integer kept.1.noFraction kept.1.noExponent
    exact ⟨_, rfl, .integer kept.1 same kept.2.1 kept.2.2⟩
  · rename_i lost
    refine ⟨_, rfl, .double fun integral value same least greatest => lost ⟨integral, ?_⟩⟩
    have whole := value_eq_integer integral.noFraction integral.noExponent
    have equal : value = numeral.integer := by exact_mod_cast same.symm.trans whole
    exact equal ▸ ⟨least, greatest⟩

end Numeral

/-- Further digits are taken as long as they fit, and only then is any of them left out. -/
theorem appendDigits_spec (seen : List Char) {digits : List Char}
    (isDigit : ∀ c ∈ digits, c.isDigit = true) (fits : Number.digitsValue seen ≤ greatestInteger) :
    ∃ taken leftOut, digits = taken ++ leftOut ∧
      appendDigits (Number.digitsValue seen) digits =
        (Number.digitsValue (seen ++ taken), leftOut) ∧
      Number.digitsValue (seen ++ taken) ≤ greatestInteger ∧
      (leftOut ≠ [] → 0 < Number.digitsValue (seen ++ taken)) := by
  -- What is accumulated is the value of the digits seen, which grow as the others are taken.
  induction digits generalizing seen with
  | nil =>
      refine ⟨[], [], rfl, ?_, ?_, fun left => absurd rfl left⟩
      · rw [List.append_nil, appendDigits]
      · rwa [List.append_nil]
  | cons c digits ih =>
      obtain ⟨first, rest⟩ := List.forall_mem_cons.mp isDigit
      have small := (Number.digitChar_of_isDigit first).1
      have longer : Number.digitsValue seen * 10 + (c.toNat - '0'.toNat) =
          Number.digitsValue (seen ++ [c]) := by
        simp [Number.digitsValue]
      simp only [appendDigits]
      split
      · rename_i beyond
        refine ⟨[], c :: digits, rfl, ?_, ?_, fun _ => ?_⟩
        · rw [List.append_nil]
        · rwa [List.append_nil]
        · rw [greatestInteger] at beyond
          rw [List.append_nil]
          omega
      · rename_i within
        rw [longer] at within ⊢
        obtain ⟨taken, leftOut, form, appended, bound, positive⟩ :=
          ih (seen ++ [c]) rest (Int.not_lt.mp within)
        rw [List.append_assoc, List.singleton_append] at appended bound positive
        exact ⟨c :: taken, leftOut, by rw [form, List.cons_append], appended, bound, positive⟩

theorem gathered_value (taken leftOut places : List Char) :
    Number.Decimal.value
        ⟨Number.digitsValue (taken ++ places), (leftOut.length : Int) - places.length⟩ =
      (Number.digitsValue taken + Number.digitsValue places / 10 ^ places.length) *
        10 ^ leftOut.length := by
  rw [Number.Decimal.value, zpow_sub₀ (by norm_num), zpow_natCast, zpow_natCast,
    Number.digitsValue_append]
  push_cast
  field_simp

/-- What a fraction adds in the place of digits that are left out is not more than what is kept. -/
theorem gathered_le {taken leftOut places unread : List Char}
    (isDigit : ∀ c ∈ places, c.isDigit = true)
    (positive : leftOut ≠ [] → 0 < Number.digitsValue taken) :
    Number.Decimal.value
        ⟨Number.digitsValue (taken ++ places), (leftOut.length : Int) - places.length⟩ ≤
      2 * (Number.digitsValue (taken ++ leftOut) +
        Number.digitsValue (places ++ unread) / 10 ^ (places ++ unread).length) := by
  have scale : (0 : ℚ) < 10 ^ places.length := by positivity
  have share : (Number.digitsValue places : ℚ) / 10 ^ places.length ≤ 1 := by
    rw [div_le_one scale]
    exact_mod_cast (Number.digitsValue_lt isDigit).le
  have wholeLeast : (10 : ℚ) ^ leftOut.length * Number.digitsValue taken ≤
      Number.digitsValue (taken ++ leftOut) := by
    rw [Number.digitsValue_append]
    exact_mod_cast Nat.le_add_right _ _
  have fractionLeast : (Number.digitsValue places : ℚ) / 10 ^ places.length ≤
      Number.digitsValue (places ++ unread) / 10 ^ (places ++ unread).length := by
    have rest : (0 : ℚ) ≤ Number.digitsValue unread := Nat.cast_nonneg _
    rw [Number.digitsValue_append, List.length_append, pow_add, div_le_div_iff₀ scale (by positivity)]
    push_cast
    nlinarith
  rw [gathered_value]
  -- A fraction adds less than one, which is at most what is kept once a digit was left out.
  by_cases none : leftOut = []
  · rw [none] at wholeLeast ⊢
    have nonneg : (0 : ℚ) ≤ Number.digitsValue taken := Nat.cast_nonneg _
    have gained : (0 : ℚ) ≤ Number.digitsValue places / 10 ^ places.length := by positivity
    simp only [List.length_nil, pow_zero, one_mul, mul_one] at wholeLeast ⊢
    linarith
  · have least : (1 : ℚ) ≤ Number.digitsValue taken := by exact_mod_cast positive none
    have fraction : (0 : ℚ) ≤
        Number.digitsValue (places ++ unread) / 10 ^ (places ++ unread).length := by positivity
    calc (Number.digitsValue taken + Number.digitsValue places / 10 ^ places.length) *
          (10 : ℚ) ^ leftOut.length
        ≤ (2 * Number.digitsValue taken) * 10 ^ leftOut.length := by
          gcongr
          linarith
      _ = 2 * (10 ^ leftOut.length * Number.digitsValue taken) := by ring
      _ ≤ _ := by linarith

theorem gather_spec {whole fraction : List Char} (isWhole : ∀ c ∈ whole, c.isDigit = true)
    (isFraction : ∀ c ∈ fraction, c.isDigit = true) :
    (gather whole fraction).digits ≤ greatestInteger ∧
      (gather whole fraction).value ≤
        2 * (Number.digitsValue whole + Number.digitsValue fraction / 10 ^ fraction.length) := by
  obtain ⟨taken, leftOut, rfl, appended, fits, positive⟩ := appendDigits_spec [] isWhole (by decide)
  obtain ⟨places, unread, rfl, extended, bound, _⟩ := appendDigits_spec taken isFraction fits
  have gathered : gather (taken ++ leftOut) (places ++ unread) =
      ⟨Number.digitsValue (taken ++ places), (leftOut.length : Int) - places.length⟩ := by
    have unseen : Number.digitsValue [] = 0 := rfl
    rw [unseen, List.nil_append] at appended
    simp only [gather, appended, extended, List.length_append, Nat.cast_add, add_sub_cancel_right]
  rw [gathered]
  exact ⟨bound, gathered_le (fun c member => isFraction c (List.mem_append_left _ member)) positive⟩

theorem Numeral.abs_value (numeral : Numeral) : |numeral.value| = numeral.magnitude := by
  have nonneg : 0 ≤ numeral.magnitude := by
    rw [magnitude]
    positivity
  rw [value]
  split
  · rw [abs_neg, abs_of_nonneg nonneg]
  · rw [abs_of_nonneg nonneg]

theorem Numeral.decimal_spec (numeral : Numeral) :
    numeral.decimal.digits ≤ greatestInteger ∧
      numeral.decimal.value ≤ 2 * numeral.magnitude := by
  have isFraction : ∀ c ∈ numeral.fraction.getD [], c.isDigit = true := by
    cases form : numeral.fraction with
    | none => simp
    | some digits => exact (numeral.isRun digits form).isDigit
  obtain ⟨digits, gathered⟩ := gather_spec numeral.isWhole.isDigit isFraction
  refine ⟨digits, ?_⟩
  calc numeral.decimal.value
      = (gather numeral.whole (numeral.fraction.getD [])).value * 10 ^ numeral.power := by
        rw [decimal, Number.Decimal.value, Number.Decimal.value, zpow_add₀ (by norm_num), mul_assoc]
    _ ≤ _ := mul_le_mul_of_nonneg_right gathered (by positivity)
    _ = 2 * numeral.magnitude := by
        rw [magnitude]
        ring

/-- A value below `10 ^ 307` is in range, however many digits the numeral has. -/
theorem Numeral.not_overflows {numeral : Numeral} (small : |numeral.value| < 10 ^ 307) :
    ¬ numeral.Overflows := by
  obtain ⟨digits, value⟩ := numeral.decimal_spec
  have range : 2 * 10 ^ 307 < 2 ^ 1021 := by decide +kernel
  have inRange : numeral.decimal.value < 2 ^ 1021 :=
    calc numeral.decimal.value ≤ 2 * numeral.magnitude := value
      _ < 2 * 10 ^ 307 := mul_lt_mul_of_pos_left (numeral.abs_value ▸ small) two_pos
      _ < 2 ^ 1021 := by exact_mod_cast range
  have short : numeral.decimal.digits < 2 ^ 64 := by
    rw [greatestInteger] at digits
    omega
  obtain ⟨number, scaled⟩ := Number.scaled?_exists short inRange
  rw [Numeral.Overflows, scaled]
  exact Option.some_ne_none number

/-- An integer of 64 bits is in range, so nothing is made of a numeral that is not. -/
theorem Numeral.number?_eq_none {numeral : Numeral} (overflows : numeral.Overflows) :
    numeral.number? = none := by
  have lost : ¬ (numeral.Integral ∧ leastInteger ≤ numeral.integer ∧
      numeral.integer ≤ greatestInteger) := by
    intro kept
    obtain ⟨integral, least, greatest⟩ := kept
    have size : |numeral.integer| < 2 ^ 64 := by
      rw [leastInteger] at least
      rw [greatestInteger] at greatest
      rw [abs_lt]
      omega
    have wide : 2 ^ 64 < 10 ^ 307 := by decide +kernel
    refine Numeral.not_overflows ?_ overflows
    rw [value_eq_integer integral.noFraction integral.noExponent]
    calc |(numeral.integer : ℚ)| < 2 ^ 64 := by exact_mod_cast size
      _ < 10 ^ 307 := by exact_mod_cast wide
  rw [number?_eq, if_neg lost, overflows, Option.bind_none]

/-- The numeral of a whole number. -/
def wholeNumeral (negative : Bool) (value : Nat) : Numeral where
  negative := negative
  whole := Nat.toDigits 10 value
  fraction := none
  exponent := none
  isWhole := Number.isWhole_toDigits value
  isRun := by simp

theorem wholeNumeral_value (negative : Bool) (value : Nat) :
    (wholeNumeral negative value).value =
      ((if negative then -(value : Int) else value : Int) : ℚ) := by
  rw [Numeral.value_eq_integer rfl rfl, Numeral.integer, wholeNumeral, Number.digitsValue_toDigits]

theorem isRun_toDigits (value : Nat) : IsRun (Nat.toDigits 10 value) :=
  ⟨(Number.isWhole_toDigits value).ne_nil, (Number.isWhole_toDigits value).isDigit⟩

/-- A power of ten, written with an exponent. -/
def powerNumeral (power : Nat) : Numeral where
  negative := false
  whole := Nat.toDigits 10 1
  fraction := none
  exponent := some ⟨'e', [], Nat.toDigits 10 power, .inl rfl, .inl rfl, isRun_toDigits power⟩
  isWhole := Number.isWhole_toDigits 1
  isRun := fun _ absent => nomatch absent

theorem powerNumeral_value (power : Nat) : (powerNumeral power).value = 10 ^ power := by
  have none : Number.digitsValue [] = 0 := rfl
  simp [Numeral.value, Numeral.magnitude, Numeral.power, powerNumeral, Exponent.value, none,
    Number.digitsValue_toDigits]

theorem integer_text (value : Int) :
    (JsonNumber.integer value).text = (wholeNumeral (decide (value < 0)) value.natAbs).text := by
  rw [JsonNumber.text, Number.toList_toString_int]
  simp [wholeNumeral, Numeral.text, Numeral.signText, Numeral.fractionText, Numeral.exponentText]

theorem wholeNumeral_number? {value : Int} (least : leastInteger ≤ value)
    (greatest : value ≤ greatestInteger) :
    (wholeNumeral (decide (value < 0)) value.natAbs).number? = some (.integer value) := by
  have same : (wholeNumeral (decide (value < 0)) value.natAbs).integer = value := by
    simp only [Numeral.integer, wholeNumeral, Number.digitsValue_toDigits, decide_eq_true_eq]
    split <;> omega
  have integral : (wholeNumeral (decide (value < 0)) value.natAbs).Integral := by
    refine Numeral.integral_iff.mpr ⟨rfl, rfl, fun minusZero => ?_⟩
    obtain ⟨negative, zero⟩ := minusZero
    rw [same] at zero
    have below : value < 0 := of_decide_eq_true negative
    omega
  rw [Numeral.number?_eq, same, if_pos ⟨integral, least, greatest⟩]

end WireSchema.Json
