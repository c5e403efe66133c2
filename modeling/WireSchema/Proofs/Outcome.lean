import Mathlib.Data.List.Forall2

namespace WireSchema

/-! Steps that may fail, taken apart.

A chain of steps gives a result exactly when each of its steps does.  The lemmas say so
for one step after another, for a test in front of a step, and for a step taken on every
element of a list.  Where a chain fails, one of its steps does, so a kind that holds all
faults of the steps holds those of the chain.
-/

theorem bind_eq_ok_iff {first : Except ε α} {next : α → Except ε β} {result : β} :
    (first >>= next) = .ok result ↔
      ∃ value, first = .ok value ∧ next value = .ok result := by
  cases first <;> simp [bind, Except.bind]

theorem bind_eq_error_iff {first : Except ε α} {next : α → Except ε β} {fault : ε} :
    (first >>= next) = .error fault ↔
      first = .error fault ∨ ∃ value, first = .ok value ∧ next value = .error fault := by
  cases first <;> simp [bind, Except.bind]

theorem andThen_eq_ok_iff {first : Except ε Unit} {next : Except ε β} {result : β} :
    (first >>= fun _ => next) = .ok result ↔ first = .ok () ∧ next = .ok result := by
  cases first <;> simp [bind, Except.bind]

theorem unless_eq_ok_iff {refused : Prop} [Decidable refused] {fault : ε}
    {rest : Except ε α} {result : α} :
    (if refused then .error fault else rest) = .ok result ↔
      ¬ refused ∧ rest = .ok result := by
  by_cases refusal : refused <;> simp [refusal]

theorem unless_eq_error_iff {refused : Prop} [Decidable refused] {fault other : ε}
    {rest : Except ε α} :
    (if refused then .error fault else rest) = .error other ↔
      (refused ∧ fault = other) ∨ (¬ refused ∧ rest = .error other) := by
  by_cases refusal : refused <;> simp [refusal]

theorem when_eq_ok_iff {granted : Prop} [Decidable granted] {fault : ε}
    {rest : Except ε α} {result : α} :
    (if granted then rest else .error fault) = .ok result ↔
      granted ∧ rest = .ok result := by
  by_cases grant : granted <;> simp [grant]

theorem mapM_eq_ok_iff {f : α → Except ε β} {inputs : List α} {outputs : List β} :
    inputs.mapM f = .ok outputs ↔
      List.Forall₂ (fun input output => f input = .ok output) inputs outputs := by
  induction inputs generalizing outputs with
  | nil =>
      rw [List.forall₂_nil_left_iff]
      constructor
      · intro mapped; cases mapped; rfl
      · intro empty; subst empty; rfl
  | cons input rest ih =>
      rw [List.mapM_cons, List.forall₂_cons_left_iff]
      constructor
      · intro mapped
        obtain ⟨output, head, mapped⟩ := bind_eq_ok_iff.mp mapped
        obtain ⟨tail, mappedTail, same⟩ := bind_eq_ok_iff.mp mapped
        cases same
        exact ⟨output, tail, head, ih.mp mappedTail, rfl⟩
      · rintro ⟨output, tail, head, related, rfl⟩
        exact bind_eq_ok_iff.mpr ⟨output, head, bind_eq_ok_iff.mpr ⟨tail, ih.mpr related, rfl⟩⟩

theorem mapM_congr {f g : α → Except ε β} {inputs : List α}
    (same : ∀ input ∈ inputs, f input = g input) : inputs.mapM f = inputs.mapM g := by
  induction inputs with
  | nil => rfl
  | cons input rest ih =>
      rw [List.forall_mem_cons] at same
      rw [List.mapM_cons, List.mapM_cons, same.1, ih same.2]

theorem forall₂_exists_iff {R : α → β → Prop} {inputs : List α} :
    (∃ outputs, List.Forall₂ R inputs outputs) ↔ ∀ input ∈ inputs, ∃ output, R input output := by
  induction inputs with
  | nil => simp
  | cons input rest ih =>
      simp only [List.forall₂_cons_left_iff, List.forall_mem_cons, ← ih]
      constructor
      · rintro ⟨_, output, outputs, head, tail, _⟩
        exact ⟨⟨output, head⟩, outputs, tail⟩
      · rintro ⟨⟨output, head⟩, outputs, tail⟩
        exact ⟨_, output, outputs, head, tail, rfl⟩

theorem forall₂_exists_right {R : α → β → Prop} {inputs : List α} {outputs : List β}
    (related : List.Forall₂ R inputs outputs) {output : β} (member : output ∈ outputs) :
    ∃ input ∈ inputs, R input output := by
  induction related with
  | nil => cases member
  | cons head _ ih =>
      rcases List.mem_cons.mp member with rfl | member
      · exact ⟨_, List.mem_cons_self, head⟩
      · obtain ⟨input, inside, tail⟩ := ih member
        exact ⟨input, List.mem_cons_of_mem _ inside, tail⟩

theorem forall₂_exists_left {R : α → β → Prop} {inputs : List α} {outputs : List β}
    (related : List.Forall₂ R inputs outputs) {input : α} (member : input ∈ inputs) :
    ∃ output ∈ outputs, R input output :=
  forall₂_exists_right (R := fun output input => R input output) related.flip member

theorem forall₂_getElem? {R : α → β → Prop} {inputs : List α} {outputs : List β}
    (related : List.Forall₂ R inputs outputs) {position : Nat} {input : α}
    (found : inputs[position]? = some input) :
    ∃ output, outputs[position]? = some output ∧ R input output := by
  induction related generalizing position with
  | nil => cases found
  | cons head _ ih =>
      cases position with
      | zero => cases found; exact ⟨_, rfl, head⟩
      | succ position => exact ih found

theorem forall₂_map_eq_iff {f : α → γ} {g : β → γ} {left : List α} {right : List β} :
    List.Forall₂ (fun l r => f l = g r) left right ↔ left.map f = right.map g := by
  rw [← List.forall₂_eq_eq_eq, List.forall₂_map_left_iff, List.forall₂_map_right_iff]

/-- Two lists are related through what each of them is related to. -/
theorem forall₂_join {R : α → β → Prop} {E : β → γ → Prop} {S : δ → γ → Prop} {T : α → δ → Prop}
    {left : List α} {leftImage : List β} {rightImage : List γ} {right : List δ}
    (leftRelated : List.Forall₂ R left leftImage) (images : List.Forall₂ E leftImage rightImage)
    (rightRelated : List.Forall₂ S right rightImage)
    (joins : ∀ l image image' r, R l image → E image image' → S r image' → T l r) :
    List.Forall₂ T left right := by
  induction leftRelated generalizing rightImage right with
  | nil =>
      cases images
      cases rightRelated
      exact .nil
  | cons head _ ih =>
      cases images with
      | cons headImages tailImages =>
          cases rightRelated with
          | cons rightHead rightTail =>
              exact .cons (joins _ _ _ _ head headImages rightHead) (ih tailImages rightTail)

/-- Outputs differ where inputs do, if an output never serves two inputs. -/
theorem nodup_of_forall₂ {R : α → β → Prop} {inputs : List α} {outputs : List β}
    (related : List.Forall₂ R inputs outputs) (distinct : inputs.Nodup)
    (injective : ∀ left right output, R left output → R right output → left = right) :
    outputs.Nodup := by
  induction related with
  | nil => exact List.nodup_nil
  | cons head tail ih =>
      rw [List.nodup_cons] at distinct
      refine List.nodup_cons.mpr ⟨fun repeated => ?_, ih distinct.2⟩
      obtain ⟨other, later, serves⟩ := forall₂_exists_right tail repeated
      exact distinct.1 (injective _ _ _ serves head ▸ later)

theorem map_eq_ok_iff {step : Except ε α} {f : α → β} {result : β} :
    step.map f = .ok result ↔ ∃ value, step = .ok value ∧ f value = result := by
  cases step <;> simp [Except.map]

theorem map_eq_error_iff {step : Except ε α} {f : α → β} {fault : ε} :
    step.map f = .error fault ↔ step = .error fault := by
  cases step <;> simp [Except.map]

/-- The outcome of a walk over some items that stops where one of them is refused. -/
def refuse (fault : α → ε) : (refused : Option α) → Except ε Unit
  | none => .ok ()
  | some item => .error (fault item)

section

variable {fault : α → ε}

theorem refuse_or (first second : Option α) :
    refuse fault (first.or second) = (refuse fault first >>= fun _ => refuse fault second) := by
  cases first <;> rfl

theorem refuse_eq_ok_iff {refused : Option α} : refuse fault refused = .ok () ↔ refused = none := by
  cases refused <;> simp [refuse]

theorem refuse_eq_error_iff {refused : Option α} {cause : ε} :
    refuse fault refused = .error cause ↔ ∃ item, refused = some item ∧ fault item = cause := by
  cases refused <;> simp [refuse]

end

/-- Every fault that the step can end in is of one kind. -/
def FaultsAre (kind : ε → Prop) (step : Except ε α) : Prop :=
  ∀ fault, step = .error fault → kind fault

namespace FaultsAre

variable {kind : ε → Prop}

theorem ok (value : α) : FaultsAre kind (.ok value : Except ε α) := by
  intro fault failed
  cases failed

theorem error {fault : ε} (holds : kind fault) : FaultsAre kind (.error fault : Except ε α) := by
  intro other failed
  cases failed
  exact holds

theorem bind {first : Except ε α} {next : α → Except ε β} (head : FaultsAre kind first)
    (tail : ∀ value, FaultsAre kind (next value)) : FaultsAre kind (first >>= next) := by
  cases first with
  | error fault => exact .error (head fault rfl)
  | ok value => exact tail value

theorem ite {condition : Prop} [Decidable condition] {whenTrue whenFalse : Except ε α}
    (yes : condition → FaultsAre kind whenTrue) (no : ¬ condition → FaultsAre kind whenFalse) :
    FaultsAre kind (if condition then whenTrue else whenFalse) := by
  by_cases holds : condition
  · rw [if_pos holds]
    exact yes holds
  · rw [if_neg holds]
    exact no holds

theorem of_succeeds {step : Except ε α} (succeeds : ∃ value, step = .ok value) :
    FaultsAre kind step := by
  obtain ⟨value, rfl⟩ := succeeds
  exact .ok value

theorem mapM {f : α → Except ε β} {inputs : List α}
    (each : ∀ input ∈ inputs, FaultsAre kind (f input)) : FaultsAre kind (inputs.mapM f) := by
  induction inputs with
  | nil => exact .ok []
  | cons input rest ih =>
      rw [List.mapM_cons]
      apply FaultsAre.bind (each input List.mem_cons_self)
      intro output
      apply FaultsAre.bind (ih fun later member => each later (List.mem_cons_of_mem _ member))
      intro outputs
      exact .ok (output :: outputs)

end FaultsAre

end WireSchema
