import Mathlib.Data.List.Nodup
import WireSchema.Proofs.Schema.Validity

namespace WireSchema

/-! Looking types up by name.

Names are looked up in a table of positions, which is filled from the declarations in order, so
a name that came twice would keep its last position.  Validation has refused such names, among
enums and records alike, so every declaration is found, and found where it stands.
-/

namespace Model

/-- Every name with its position, in the order in which the table takes them up. -/
def entries (model : Model) : List (String × Nat) :=
  model.decls.zipIdx.map fun entry => (entry.1.name, entry.2)

/-- The table that is stored with a model.  A later entry replaces an earlier one. -/
def table (model : Model) : Std.HashMap String Nat := .ofList model.entries

/-- Models compare as equal when their lists do and their tables do. -/
def isSame (left right : Model) : Bool :=
  left.decls == right.decls && left.table == right.table

variable {model : Model} {name : String} {position : Nat} {decl : TypeDecl}

theorem mem_entries_iff :
    (name, position) ∈ model.entries ↔
      ∃ decl, model.decls[position]? = some decl ∧ decl.name = name := by
  simp [entries, List.mem_zipIdx_iff_getElem?]

theorem entries_names (model : Model) :
    model.entries.map Prod.fst = model.decls.map TypeDecl.name := by
  calc model.entries.map Prod.fst = (model.decls.zipIdx.map Prod.fst).map TypeDecl.name := by
        rw [entries, List.map_map, List.map_map]
        rfl
    _ = model.decls.map TypeDecl.name := by rw [List.zipIdx_map_fst]

theorem entries_apart (model : Model) :
    model.entries.Pairwise fun left right => (left.1 == right.1) = false := by
  have distinct : (model.entries.map Prod.fst).Nodup := model.entries_names ▸ model.distinctNames
  rw [List.Nodup, List.pairwise_map] at distinct
  exact distinct.imp fun different => beq_eq_false_iff_ne.mpr different

theorem table_eq_some_iff :
    model.table[name]? = some position ↔
      ∃ decl, model.decls[position]? = some decl ∧ decl.name = name := by
  have found : ∀ {stored}, (name, stored) ∈ model.entries → model.table[name]? = some stored :=
    Std.HashMap.getElem?_ofList_of_mem (beq_self_eq_true name) model.entries_apart
  rw [← mem_entries_iff]
  refine ⟨fun looked => ?_, found⟩
  by_cases known : name ∈ model.entries.map Prod.fst
  · obtain ⟨⟨_, stored⟩, member, rfl⟩ := List.mem_map.mp known
    rw [found member, Option.some.injEq] at looked
    exact looked ▸ member
  · have absent : (model.entries.map Prod.fst).contains name = false := by
      simpa only [List.contains_eq_mem, decide_eq_false_iff_not] using known
    rw [table, Std.HashMap.getElem?_ofList_of_contains_eq_false absent] at looked
    cases looked

/-- No earlier declaration has the name, so the position in the table is the first one. -/
theorem index?_eq_some_iff :
    model.index? name = some position ↔
      ∃ decl, model.decls[position]? = some decl ∧ decl.name = name := by
  rw [index?, List.findIdx?_eq_some_iff_getElem]
  refine ⟨fun first => ?_, fun there => ?_⟩
  · obtain ⟨within, called, _⟩ := first
    exact ⟨_, List.getElem?_eq_getElem within, beq_iff_eq.mp called⟩
  · obtain ⟨decl, there, rfl⟩ := there
    obtain ⟨within, rfl⟩ := List.getElem?_eq_some_iff.mp there
    refine ⟨within, beq_self_eq_true _, fun earlier before called => ?_⟩
    have size : (model.decls.map TypeDecl.name).length = model.decls.length := List.length_map _
    have called : (model.decls.map TypeDecl.name)[earlier] =
        (model.decls.map TypeDecl.name)[position] := by
      rw [List.getElem_map, List.getElem_map]
      exact beq_iff_eq.mp called
    have same := model.distinctNames.getElem_inj_iff.mp called
    omega

theorem table_eq_index? (model : Model) (name : String) :
    model.table[name]? = model.index? name :=
  Option.ext fun _ => table_eq_some_iff.trans index?_eq_some_iff.symm

theorem find?_eq_some_iff :
    model.find? name = some decl ↔ decl ∈ model.decls ∧ decl.name = name := by
  refine ⟨fun found => ?_, fun declared => ?_⟩
  · rw [find?_eq_find?] at found
    have called := List.find?_some found
    exact ⟨List.mem_of_find?_eq_some found, beq_iff_eq.mp called⟩
  · obtain ⟨member, rfl⟩ := declared
    exact model.find?_name member

theorem filter_name_of_find? (found : model.find? name = some decl) :
    model.decls.filter (·.name == name) = [decl] := by
  obtain ⟨member, rfl⟩ := find?_eq_some_iff.mp found
  have onlyOne : model.decls.filter (·.name == decl.name) = model.decls.filter (· == decl) := by
    refine List.filter_congr fun other declared => ?_
    rw [Bool.eq_iff_iff, beq_iff_eq, beq_iff_eq]
    exact ⟨model.eq_of_name_eq declared member, congrArg TypeDecl.name⟩
  have once := List.count_eq_one_of_mem model.distinctNames.of_map member
  rw [onlyOne, List.filter_beq, once, List.replicate_one]

theorem declares_eq_isSome (model : Model) (name : String) :
    model.declares name = (model.find? name).isSome := by
  rw [Bool.eq_iff_iff, declares_iff, Option.isSome_iff_exists]
  simp only [find?_eq_some_iff]

theorem enums_eq_filter (model : Model) :
    model.enums.map TypeDecl.enum = model.decls.filter (·.enum?.isSome) := by
  rw [enums]
  induction model.decls with
  | nil => rfl
  | cons decl rest ih =>
      cases decl with
      | enum enum => exact congrArg (TypeDecl.enum enum :: ·) ih
      | record record => exact ih

theorem records_eq_filter (model : Model) :
    model.records.map TypeDecl.record = model.decls.filter (·.record?.isSome) := by
  rw [records]
  induction model.decls with
  | nil => rfl
  | cons decl rest ih =>
      cases decl with
      | enum enum => exact ih
      | record record => exact congrArg (TypeDecl.record record :: ·) ih

theorem length_enums_add_length_records (model : Model) :
    model.enums.length + model.records.length = model.size := by
  rw [enums, records, size]
  induction model.decls with
  | nil => rfl
  | cons decl rest ih =>
      cases decl with
      | enum enum =>
          simp only [List.filterMap_cons, TypeDecl.enum?, TypeDecl.record?, List.length_cons]
          omega
      | record record =>
          simp only [List.filterMap_cons, TypeDecl.enum?, TypeDecl.record?, List.length_cons]
          omega

theorem eq_iff_decls_eq {left right : Model} : left = right ↔ left.decls = right.decls := by
  rw [Model.mk.injEq]

/-- The tables say nothing that the lists do not say. -/
theorem isSame_iff {left right : Model} : left.isSame right = true ↔ left = right := by
  rw [isSame, Bool.and_eq_true, beq_iff_eq, eq_iff_decls_eq, and_iff_left_iff_imp]
  intro same
  rw [eq_iff_decls_eq.mpr same]
  exact (Std.HashMap.Equiv.refl _).beq

/-- Whatever is asked by name, the list of declarations gives the answer. -/
structure AnswersFrom (model : Model) (decls : List TypeDecl) : Prop where
  decls_eq : model.decls = decls
  inBounds : ∀ name position, model.table[name]? = some position →
    ∃ within : position < decls.length, decls[position].name = name
  table_eq : ∀ name, model.table[name]? = model.index? name
  find?_iff : ∀ name decl, model.find? name = some decl ↔ decl ∈ decls ∧ decl.name = name
  onlyOne : ∀ name decl, model.find? name = some decl → decls.filter (·.name == name) = [decl]
  declares_eq : ∀ name, model.declares name = (model.find? name).isSome
  enums_eq : model.enums.map TypeDecl.enum = decls.filter (·.enum?.isSome)
  records_eq : model.records.map TypeDecl.record = decls.filter (·.record?.isSome)
  size_eq : model.size = decls.length ∧ model.enums.length + model.records.length = model.size

theorem answersFrom_decls (model : Model) : model.AnswersFrom model.decls where
  decls_eq := rfl
  inBounds name position looked := by
    obtain ⟨decl, there, called⟩ := table_eq_some_iff.mp looked
    obtain ⟨within, rfl⟩ := List.getElem?_eq_some_iff.mp there
    exact ⟨within, called⟩
  table_eq := model.table_eq_index?
  find?_iff _ _ := find?_eq_some_iff
  onlyOne _ _ := filter_name_of_find?
  declares_eq := model.declares_eq_isSome
  enums_eq := model.enums_eq_filter
  records_eq := model.records_eq_filter
  size_eq := ⟨rfl, model.length_enums_add_length_records⟩

/-- A model answers every lookup from the list it was built from, and it is the same as another
model exactly when the lists are. -/
theorem ofDecls_answersFrom {decls : List TypeDecl} (built : ofDecls decls = .ok model) :
    model.AnswersFrom decls ∧
      ∀ other : Model, (model = other ↔ decls = other.decls) ∧
        (model.isSame other = true ↔ model = other) := by
  have decls_eq := ofDecls_eq_ok_iff.mp built
  subst decls_eq
  exact ⟨model.answersFrom_decls, fun _ => ⟨eq_iff_decls_eq, isSame_iff⟩⟩

/-- Enums and records take turns, and a record comes before what it refers to. -/
def shop : Model where
  decls :=
    [ .record ⟨"Order", [⟨"items", .list (.named "Item"), "items"⟩,
        ⟨"status", .named "Status", "status"⟩]⟩,
      .enum ⟨"Status", .string, [⟨"OPEN", .string "open"⟩, ⟨"PAID", .string "paid"⟩]⟩,
      .record ⟨"Item", [⟨"price", .primitive .float, "price"⟩]⟩ ]
  valid := by decide

theorem shop_answersFrom :
    ofDecls shop.decls = .ok shop ∧ shop.index? "Item" = some 2 ∧ shop.find? "item" = none ∧
      shop.AnswersFrom shop.decls ∧
      ∀ other : Model, (shop = other ↔ shop.decls = other.decls) ∧
        (shop.isSame other = true ↔ shop = other) :=
  ⟨ofDecls_decls shop, by decide, by decide, ofDecls_answersFrom (ofDecls_decls shop)⟩

end Model

end WireSchema
