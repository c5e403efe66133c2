import WireSchema.Proofs.Symbol.Locality

namespace WireSchema

/-! Identifiers do not depend on the order of unrelated types.

Two enums can get in each other's way only if they have a spelling in common.  So an enum may
move past all others with which it has none: what it is given stays the same, and so does
what they are given.  Enum by enum, that leads from one order of a schema to the other.
-/

/-- Some identifier is a spelling of both enums. -/
def Naming.Contend (naming : Naming) (first second : EnumType) : Prop :=
  ∃ spelling ∈ naming.spellings first, spelling ∈ naming.spellings second

/-- Enums that contend for an identifier stand in the same order in both lists. -/
def Naming.KeepsOrder (naming : Naming) (left right : List EnumType) : Prop :=
  ∀ first ∈ left, ∀ second ∈ left, first ≠ second → naming.Contend first second →
    ([first, second].Sublist left ↔ [first, second].Sublist right)

/-- The same types in another order, contending enums in the same order. -/
structure Reordered (naming : Naming) (left right : Model) : Prop where
  permuted : left.decls.Perm right.decls
  keepsOrder : naming.KeepsOrder left.enums right.enums

theorem sublist_middle_iff [DecidableEq α] {part after : List α} {item : α} (before : List α)
    (absent : item ∉ part) :
    part.Sublist (before ++ item :: after) ↔ part.Sublist (before ++ after) := by
  constructor
  · intro inside
    have kept : part.filter (· ≠ item) = part := by
      apply List.filter_eq_self.mpr
      intro other member
      have unlike : other ≠ item := fun same => absent (same ▸ member)
      simpa using unlike
    have inside := inside.filter (· ≠ item)
    rw [kept, List.filter_append, List.filter_cons_of_neg (by simp)] at inside
    exact inside.trans (List.filter_sublist.append List.filter_sublist)
  · intro inside
    exact inside.trans ((List.sublist_cons_self item after).append_left before)

namespace Naming.KeepsOrder

variable {naming : Naming} {enum : EnumType} {left rest before after : List EnumType}

/-- An enum that comes first on one side contends with none that precedes it on the other. -/
theorem not_contend (keepsOrder : naming.KeepsOrder (enum :: rest) (before ++ enum :: after))
    (permuted : (enum :: rest).Perm (before ++ enum :: after)) (distinct : (enum :: rest).Nodup)
    {other : EnumType} (member : other ∈ before) : ¬ naming.Contend other enum := by
  intro contend
  have apart := List.nodup_append.mp (permuted.nodup_iff.mp distinct)
  have different : other ≠ enum := apart.2.2 other member enum List.mem_cons_self
  have declared : other ∈ enum :: rest :=
    permuted.mem_iff.mpr (List.mem_append_left _ member)
  have precedes : [other, enum].Sublist (before ++ enum :: after) :=
    (List.singleton_sublist.mpr member).append (List.singleton_sublist.mpr List.mem_cons_self)
  have first := (keepsOrder other declared enum List.mem_cons_self different contend).mpr precedes
  cases first with
  | cons _ later =>
      have again : enum ∈ rest := later.subset (List.mem_cons_of_mem _ List.mem_cons_self)
      exact (List.nodup_cons.mp distinct).1 again
  | cons_cons _ _ => exact different rfl

theorem erase (keepsOrder : naming.KeepsOrder (enum :: rest) (before ++ enum :: after))
    (distinct : (enum :: rest).Nodup) : naming.KeepsOrder rest (before ++ after) := by
  intro first firstIn second secondIn different contend
  have fresh := (List.nodup_cons.mp distinct).1
  have absent : enum ∉ [first, second] := by
    intro member
    cases List.mem_cons.mp member with
    | inl same => exact fresh (same ▸ firstIn)
    | inr same => exact fresh (List.mem_singleton.mp same ▸ secondIn)
  have order := keepsOrder first (List.mem_cons_of_mem _ firstIn) second
    (List.mem_cons_of_mem _ secondIn) different contend
  have ahead : [first, second].Sublist (enum :: rest) ↔ [first, second].Sublist rest :=
    sublist_middle_iff [] absent
  rw [← ahead, order, sublist_middle_iff before absent]

theorem symm {right : List EnumType} (keepsOrder : naming.KeepsOrder left right)
    (permuted : left.Perm right) : naming.KeepsOrder right left := by
  intro first firstIn second secondIn different contend
  exact (keepsOrder first (permuted.mem_iff.mpr firstIn) second (permuted.mem_iff.mpr secondIn)
    different contend).symm

end Naming.KeepsOrder

/-- Requests that are met first may be met later, after others that share no spelling with
them, and everybody gets the same. -/
theorem Served.postpone {taken newMoved new : List Binding} {moved before after : List Request}
    (apart : ∀ spelling ∈ before.flatMap Request.spellings,
      spelling ∉ moved.flatMap Request.spellings)
    (first : Served taken moved newMoved) (rest : Served (taken ++ newMoved) (before ++ after) new) :
    ∃ reordered, reordered.Perm (newMoved ++ new) ∧
      Served taken (before ++ (moved ++ after)) reordered := by
  obtain ⟨newBefore, newAfter, servedBefore, servedAfter, rfl⟩ := served_append_iff.mp rest
  have earlier : Served taken before newBefore := by
    apply servedBefore.congr
    apply AgreeOn.of_unused
    intro binding member spelled
    exact apart _ spelled (first.mem_spellings member)
  have later : Served (taken ++ newBefore) moved newMoved := by
    apply first.congr
    apply AgreeOn.symm
    apply AgreeOn.of_unused
    intro binding member spelled
    exact apart _ (earlier.mem_spellings member) spelled
  have last : Served (taken ++ newBefore ++ newMoved) after newAfter := by
    apply servedAfter.congr
    apply AgreeOn.of_perm
    rw [List.append_assoc, List.append_assoc]
    exact List.perm_append_comm.append_left taken
  refine ⟨newBefore ++ (newMoved ++ newAfter), ?_, ?_⟩
  · exact List.perm_append_comm_assoc newBefore newMoved newAfter
  · exact served_append_iff.mpr
      ⟨newBefore, _, earlier, served_append_iff.mpr ⟨newMoved, newAfter, later, last, rfl⟩, rfl⟩

theorem Served.reorder {naming : Naming} {left right : List EnumType} {taken new : List Binding}
    (permuted : left.Perm right) (distinct : left.Nodup) (keepsOrder : naming.KeepsOrder left right)
    (served : Served taken (left.flatMap naming.requests) new) :
    ∃ reordered, reordered.Perm new ∧ Served taken (right.flatMap naming.requests) reordered := by
  induction left generalizing right taken new with
  | nil =>
      rw [permuted.nil_eq] at served
      exact ⟨new, .refl new, served⟩
  | cons enum rest ih =>
      -- The first enum is taken out of the other list; it comes back behind its predecessors there.
      have member : enum ∈ right := permuted.mem_iff.mp List.mem_cons_self
      obtain ⟨before, after, rfl⟩ := List.append_of_mem member
      have restPermuted : rest.Perm (before ++ after) := (permuted.trans List.perm_middle).cons_inv
      rw [List.flatMap_cons] at served
      obtain ⟨newEnum, newRest, servedEnum, servedRest, rfl⟩ := served_append_iff.mp served
      obtain ⟨newOthers, same, servedOthers⟩ :=
        ih restPermuted (List.nodup_cons.mp distinct).2 (keepsOrder.erase distinct) servedRest
      rw [List.flatMap_append] at servedOthers
      have apart : ∀ spelling ∈ (before.flatMap naming.requests).flatMap Request.spellings,
          spelling ∉ naming.spellings enum := by
        intro spelling spelled shared
        rw [List.flatMap_assoc] at spelled
        obtain ⟨other, inside, spelled⟩ := List.mem_flatMap.mp spelled
        exact keepsOrder.not_contend permuted distinct inside ⟨spelling, spelled, shared⟩
      obtain ⟨reordered, sameAgain, servedAll⟩ := servedEnum.postpone apart servedOthers
      refine ⟨reordered, sameAgain.trans (same.append_left newEnum), ?_⟩
      rw [List.flatMap_append, List.flatMap_cons]
      exact servedAll

/-! From the runs to the resolutions. -/

/-- The same identifiers for the same language, whatever the order of the bindings. -/
structure Symbols.SameAs (left right : Symbols) : Prop where
  language_eq : left.language = right.language
  get?_eq : ∀ key, left.get? key = right.get? key

theorem Symbols.SameAs.of_perm {left right : Symbols} (language : left.language = right.language)
    (permuted : left.bindings.Perm right.bindings)
    (distinct : (left.bindings.map Binding.key).Nodup) : left.SameAs right where
  language_eq := language
  get?_eq := by
    intro key
    apply Option.ext
    intro identifier
    have distinctRight := (permuted.map Binding.key).nodup_iff.mp distinct
    rw [get?_eq_some_iff distinct, get?_eq_some_iff distinctRight, permuted.mem_iff]

theorem Model.distinctEnums (model : Model) : model.enums.Nodup := by
  apply List.Nodup.filterMap _ (List.Nodup.of_map _ model.distinctNames)
  intro left right enum leftEnum rightEnum
  cases left <;> cases leftEnum
  cases right <;> cases rightEnum
  rfl

namespace Reordered

variable {naming : Naming} {left right : Model}

theorem permutedEnums (reordered : Reordered naming left right) : left.enums.Perm right.enums :=
  reordered.permuted.filterMap TypeDecl.enum?

theorem symm (reordered : Reordered naming left right) : Reordered naming right left :=
  ⟨reordered.permuted.symm, reordered.keepsOrder.symm reordered.permutedEnums⟩

theorem resolves (reordered : Reordered naming left right) {symbols : Symbols}
    (resolved : resolve naming left = .ok symbols) :
    ∃ others, resolve naming right = .ok others ∧ symbols.SameAs others := by
  have distinctKeys : (symbols.bindings.map Binding.key).Nodup :=
    resolve_keys resolved ▸ left.nodup_symbolKeys
  obtain ⟨distinct, new, served, rfl⟩ := resolve_eq_ok_iff.mp resolved
  obtain ⟨newOthers, same, servedOthers⟩ :=
    served.reorder reordered.permutedEnums left.distinctEnums reordered.keepsOrder
  have sameTypes := reordered.permuted.map naming.bindType
  refine ⟨⟨naming.language, right.decls.map naming.bindType ++ newOthers⟩, ?_, ?_⟩
  · apply resolve_eq_ok_iff.mpr
    refine ⟨(reordered.permuted.map _).nodup_iff.mp distinct, newOthers, ?_, rfl⟩
    exact servedOthers.congr (.of_perm sameTypes)
  · exact .of_perm rfl (sameTypes.append same.symm) distinctKeys

end Reordered

/-- Reordering types whose cases do not contend changes no identifier, and does not decide
whether there are identifiers at all. -/
theorem resolve_reordered {naming : Naming} {left right : Model}
    (reordered : Reordered naming left right) :
    ((∃ symbols, resolve naming left = .ok symbols) ↔
        ∃ symbols, resolve naming right = .ok symbols) ∧
      ∀ symbols others, resolve naming left = .ok symbols → resolve naming right = .ok others →
        symbols.SameAs others := by
  refine ⟨⟨?_, ?_⟩, ?_⟩
  · intro success
    obtain ⟨symbols, resolved⟩ := success
    obtain ⟨others, resolvedOthers, _⟩ := reordered.resolves resolved
    exact ⟨others, resolvedOthers⟩
  · intro success
    obtain ⟨others, resolvedOthers⟩ := success
    obtain ⟨symbols, resolved, _⟩ := reordered.symm.resolves resolvedOthers
    exact ⟨symbols, resolved⟩
  · intro symbols others resolved resolvedOthers
    obtain ⟨found, resolvedFound, same⟩ := reordered.resolves resolved
    rw [resolvedOthers] at resolvedFound
    cases resolvedFound
    exact same

/-- Two enums that contend for `X`, and one that contends with neither. -/
def audited : Model where
  decls :=
    [ .enum ⟨"Color", .integer, [⟨"RED", .integer 0⟩, ⟨"X", .integer 1⟩]⟩,
      .enum ⟨"Role", .string, [⟨"X", .string "x"⟩, ⟨"Color", .string "c"⟩]⟩,
      .enum ⟨"Audit", .integer, [⟨"ON", .integer 1⟩, ⟨"User", .integer 0⟩]⟩,
      .record ⟨"User", []⟩ ]
  valid := by decide

def auditedFirst : Model where
  decls :=
    [ .record ⟨"User", []⟩,
      .enum ⟨"Color", .integer, [⟨"RED", .integer 0⟩, ⟨"X", .integer 1⟩]⟩,
      .enum ⟨"Audit", .integer, [⟨"ON", .integer 1⟩, ⟨"User", .integer 0⟩]⟩,
      .enum ⟨"Role", .string, [⟨"X", .string "x"⟩, ⟨"Color", .string "c"⟩]⟩ ]
  valid := by decide

def auditedSymbols : Symbols where
  language := .go
  bindings :=
    [ ⟨.type "Color", "Color"⟩, ⟨.type "Role", "Role"⟩, ⟨.type "Audit", "Audit"⟩,
      ⟨.type "User", "User"⟩, ⟨.member "Color" "RED", "RED"⟩, ⟨.member "Color" "X", "X"⟩,
      ⟨.member "Role" "X", "XRole"⟩, ⟨.member "Role" "Color", "ColorRole"⟩,
      ⟨.member "Audit" "ON", "ON"⟩, ⟨.member "Audit" "User", "UserAudit"⟩ ]

theorem audited_reordered :
    Reordered .verbatim audited auditedFirst ∧
      ∃ others, resolve .verbatim audited = .ok auditedSymbols ∧
        resolve .verbatim auditedFirst = .ok others ∧ auditedSymbols.SameAs others := by
  have reordered : Reordered .verbatim audited auditedFirst := by
    refine ⟨by decide, ?_⟩
    unfold Naming.KeepsOrder Naming.Contend
    decide
  have resolved : resolve .verbatim audited = .ok auditedSymbols := by decide
  obtain ⟨others, resolvedOthers⟩ := (resolve_reordered reordered).1.mp ⟨_, resolved⟩
  have same := (resolve_reordered reordered).2 _ _ resolved resolvedOthers
  exact ⟨reordered, others, resolved, resolvedOthers, same⟩

end WireSchema
