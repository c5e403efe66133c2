import Mathlib.Data.Finset.Insert
import WireSchema.Proofs.Schema.Containment

namespace WireSchema

/-! The search for records inside records, turn by turn.

Here the search keeps a stack of names and the set of names it has looked into.  A name may be
on the stack many times, and the stack may grow from one turn to the next.  A declaration puts
what it holds on the stack only once, though, so that what is on the stack and what can still
come to it are together less after every turn.
-/

open Relation

namespace Model

/-- What the declaration called `name` holds by value, if there is one. -/
def heldBy (model : Model) (name : String) : List String :=
  match model.find? name with
  | some decl => decl.embedded
  | none => []

/-- How many fields of the model hold a value of a named type. -/
def heldCount (model : Model) : Nat := (model.decls.flatMap TypeDecl.embedded).length

theorem heldBy_name (model : Model) {decl : TypeDecl} (declared : decl ∈ model.decls) :
    model.heldBy decl.name = decl.embedded := by
  rw [heldBy, model.find?_name declared]

theorem heldBy_cases (model : Model) (name : String) :
    (∃ decl ∈ model.decls, decl.name = name) ∨ model.heldBy name = [] := by
  cases found : model.find? name with
  | none => exact .inr (by rw [heldBy, found])
  | some decl =>
      rw [find?_eq_find?] at found
      have named : decl.name = name := by simpa using List.find?_some found
      exact .inl ⟨decl, List.mem_of_find?_eq_some found, named⟩

theorem mem_heldBy_iff {model : Model} {outer inner : String} :
    inner ∈ model.heldBy outer ↔ HoldsByValue model.decls outer inner := by
  rw [holdsByValue_iff]
  constructor
  · intro inside
    rcases model.heldBy_cases outer with ⟨decl, declared, rfl⟩ | nothing
    · exact ⟨decl, declared, rfl, model.heldBy_name declared ▸ inside⟩
    · rw [nothing] at inside
      cases inside
  · rintro ⟨decl, declared, rfl, inside⟩
    rw [model.heldBy_name declared]
    exact inside

end Model

/-- The names looked into so far, and the stack of names to look into with its top in front. -/
structure Search where
  visited : Finset String
  pending : List String
deriving DecidableEq

namespace Search

/-- What comes of a turn. -/
inductive Turn where
  | answers (found : Bool)
  | goesOn (search : Search)
deriving DecidableEq

def start (name : String) : Search := ⟨∅, [name]⟩

/-- Takes a name off the stack.  One that is neither the goal nor visited is looked into: what
its declaration holds is put on the stack, field by field. -/
def turn (model : Model) (goal : String) : Search → Turn
  | ⟨_, []⟩ => .answers false
  | ⟨visited, name :: rest⟩ =>
      if name = goal then .answers true
      else if name ∈ visited then .goesOn ⟨visited, rest⟩
      else .goesOn ⟨insert name visited, (model.heldBy name).reverse ++ rest⟩

/-- The answer, if it comes within so many turns. -/
def run (model : Model) (goal : String) : Nat → Search → Option Bool
  | 0, _ => none
  | turns + 1, search =>
      match search.turn model goal with
      | .answers found => some found
      | .goesOn next => run model goal turns next

section

variable {model : Model} {goal name : String} {search next : Search} {found : Bool}

theorem turn_goesOn (goes : search.turn model goal = .goesOn next) :
    ∃ top rest, search.pending = top :: rest ∧ top ≠ goal ∧
      ((top ∈ search.visited ∧ next = ⟨search.visited, rest⟩) ∨
        (top ∉ search.visited ∧
          next = ⟨insert top search.visited, (model.heldBy top).reverse ++ rest⟩)) := by
  fun_cases turn model goal search with
  | case1 => simp [turn] at goes
  | case2 visited rest => simp [turn] at goes
  | case3 visited top rest different seen =>
      simp only [turn, if_neg different, if_pos seen, Turn.goesOn.injEq] at goes
      exact ⟨top, rest, rfl, different, .inl ⟨seen, goes.symm⟩⟩
  | case4 visited top rest different fresh =>
      simp only [turn, if_neg different, if_neg fresh, Turn.goesOn.injEq] at goes
      exact ⟨top, rest, rfl, different, .inr ⟨fresh, goes.symm⟩⟩

theorem turn_answers (ends : search.turn model goal = .answers found) :
    (found = true ∧ goal ∈ search.pending) ∨ (found = false ∧ search.pending = []) := by
  fun_cases turn model goal search with
  | case1 =>
      cases ends
      exact .inr ⟨rfl, rfl⟩
  | case2 visited rest =>
      simp only [turn, if_true, Turn.answers.injEq] at ends
      exact .inl ⟨ends.symm, List.mem_cons_self⟩
  | case3 visited top rest different seen => simp [turn, different, seen] at ends
  | case4 visited top rest different fresh => simp [turn, different, fresh] at ends

/-- What the declarations that were not looked into can still put on the stack. -/
def unread (decls : List TypeDecl) (visited : Finset String) : Nat :=
  ((decls.filter (·.name ∉ visited)).flatMap TypeDecl.embedded).length

/-- How many names can be taken off the stack from here on. -/
def budget (model : Model) (search : Search) : Nat :=
  search.pending.length + unread model.decls search.visited

theorem unread_cons (decl : TypeDecl) (rest : List TypeDecl) (visited : Finset String) :
    unread (decl :: rest) visited =
      (if decl.name ∈ visited then 0 else decl.embedded.length) + unread rest visited := by
  by_cases seen : decl.name ∈ visited <;> simp [unread, seen]

theorem unread_empty (decls : List TypeDecl) :
    unread decls ∅ = (decls.flatMap TypeDecl.embedded).length := by
  simp [unread]

theorem unread_insert_le (name : String) (decls : List TypeDecl) (visited : Finset String) :
    unread decls (insert name visited) ≤ unread decls visited := by
  induction decls with
  | nil => exact Nat.le_refl _
  | cons decl rest ih =>
      rw [unread_cons, unread_cons]
      by_cases seen : decl.name ∈ visited
      · rw [if_pos seen, if_pos (Finset.mem_insert_of_mem seen)]
        omega
      · rw [if_neg seen]
        split <;> omega

/-- A declaration that is looked into has nothing left to put on the stack. -/
theorem unread_insert {decls : List TypeDecl} {decl : TypeDecl} {visited : Finset String}
    (declared : decl ∈ decls) (fresh : decl.name ∉ visited) :
    unread decls (insert decl.name visited) + decl.embedded.length ≤ unread decls visited := by
  induction decls with
  | nil => cases declared
  | cons other rest ih =>
      rw [unread_cons, unread_cons]
      rcases List.mem_cons.mp declared with rfl | later
      · have others := unread_insert_le decl.name rest visited
        rw [if_pos (Finset.mem_insert_self _ _), if_neg fresh]
        omega
      · have spent := ih later
        by_cases seen : other.name ∈ visited
        · rw [if_pos seen, if_pos (Finset.mem_insert_of_mem seen)]
          omega
        · rw [if_neg seen]
          split <;> omega

theorem budget_turn (goes : search.turn model goal = .goesOn next) :
    next.budget model < search.budget model := by
  obtain ⟨top, rest, pending, _, ⟨_, rfl⟩ | ⟨fresh, rfl⟩⟩ := turn_goesOn goes
  · simp [budget, pending]
  · rcases model.heldBy_cases top with ⟨decl, declared, rfl⟩ | nothing
    · have spent := unread_insert declared fresh
      simp only [budget, pending, model.heldBy_name declared, List.length_append,
        List.length_reverse, List.length_cons]
      omega
    · have kept := unread_insert_le top model.decls search.visited
      simp only [budget, pending, nothing, List.reverse_nil, List.nil_append, List.length_cons]
      omega

/-- The search has met the name. -/
def Covers (search : Search) (name : String) : Prop :=
  name ∈ search.visited ∨ name ∈ search.pending

/-- What is true before every turn of a search that began at `start`. -/
structure Sound (model : Model) (start goal : String) (search : Search) : Prop where
  begun : search.Covers start
  reached : ∀ name ∈ search.pending, model.LeadsTo start name
  missed : goal ∉ search.visited
  followed : ∀ outer ∈ search.visited, ∀ inner, HoldsByValue model.decls outer inner →
    search.Covers inner

theorem Covers.turn (covered : search.Covers name)
    (goes : search.turn model goal = .goesOn next) : next.Covers name := by
  obtain ⟨top, rest, pending, _, ⟨seen, rfl⟩ | ⟨_, rfl⟩⟩ := turn_goesOn goes
  · rcases covered with visited | waiting
    · exact .inl visited
    · rw [pending] at waiting
      rcases List.mem_cons.mp waiting with rfl | later
      · exact .inl seen
      · exact .inr later
  · rcases covered with visited | waiting
    · exact .inl (Finset.mem_insert_of_mem visited)
    · rw [pending] at waiting
      rcases List.mem_cons.mp waiting with rfl | later
      · exact .inl (Finset.mem_insert_self _ _)
      · exact .inr (List.mem_append_right _ later)

namespace Sound

variable {start : String}

theorem begin (model : Model) (start goal : String) : Sound model start goal (.start start) where
  begun := .inr List.mem_cons_self
  reached name member := by
    rw [List.mem_singleton.mp member]
    exact .refl
  missed := Finset.notMem_empty goal
  followed outer member := absurd member (Finset.notMem_empty outer)

theorem turn (sound : Sound model start goal search)
    (goes : search.turn model goal = .goesOn next) : Sound model start goal next := by
  have begun := sound.begun.turn goes
  have followed : ∀ outer ∈ search.visited, ∀ inner, HoldsByValue model.decls outer inner →
      next.Covers inner := fun outer member inner holds =>
    (sound.followed outer member inner holds).turn goes
  obtain ⟨top, rest, pending, different, ⟨_, rfl⟩ | ⟨_, rfl⟩⟩ := turn_goesOn goes
  · have reached : ∀ name ∈ rest, model.LeadsTo start name := fun name member =>
      sound.reached name (pending ▸ List.mem_cons_of_mem _ member)
    exact ⟨begun, reached, sound.missed, followed⟩
  · have toTop : model.LeadsTo start top := sound.reached top (pending ▸ List.mem_cons_self)
    refine ⟨begun, ?_, ?_, ?_⟩
    · intro name member
      rcases List.mem_append.mp member with held | later
      · exact toTop.tail (Model.mem_heldBy_iff.mp (List.mem_reverse.mp held))
      · exact sound.reached name (pending ▸ List.mem_cons_of_mem _ later)
    · exact fun member => (Finset.mem_insert.mp member).elim (different ·.symm) sound.missed
    -- All that the new visited name holds went on the stack in this very turn.
    · intro outer member inner holds
      rcases Finset.mem_insert.mp member with rfl | earlier
      · exact .inr (List.mem_append_left _ (List.mem_reverse.mpr (Model.mem_heldBy_iff.mpr holds)))
      · exact followed outer earlier inner holds

/-- With an empty stack, whatever the start leads to has been looked into. -/
theorem visits (sound : Sound model start goal search) (empty : search.pending = [])
    (path : model.LeadsTo start name) : name ∈ search.visited := by
  have visited : ∀ name, search.Covers name → name ∈ search.visited := by
    intro name covered
    rcases covered with visited | waiting
    · exact visited
    · rw [empty] at waiting
      cases waiting
  induction path with
  | refl => exact visited _ sound.begun
  | tail _ holds ih => exact visited _ (sound.followed _ ih _ holds)

theorem answers (sound : Sound model start goal search)
    (ends : search.turn model goal = .answers found) :
    found = true ↔ model.LeadsTo start goal := by
  rcases turn_answers ends with ⟨rfl, waiting⟩ | ⟨rfl, empty⟩
  · simp [sound.reached goal waiting]
  · simpa using fun path => sound.missed (sound.visits empty path)

theorem run (sound : Sound model start goal search) (turns : Nat)
    (enough : search.budget model < turns) :
    ∃ found, search.run model goal turns = some found ∧
      (found = true ↔ model.LeadsTo start goal) := by
  -- On the number of turns: what a turn leaves is sound again and has a smaller budget.
  induction turns generalizing search with
  | zero => omega
  | succ turns ih =>
      cases outcome : search.turn model goal with
      | answers found => exact ⟨found, by rw [Search.run, outcome], sound.answers outcome⟩
      | goesOn next =>
          have less := budget_turn outcome
          obtain ⟨found, ran, decides⟩ := ih (sound.turn outcome) (by omega)
          exact ⟨found, by rw [Search.run, outcome]; exact ran, decides⟩

end Sound

end

end Search

/-- From any name and to any goal, known to the model or not, the search ends within a number of
turns that the model fixes.  It finds the goal exactly if following bare names of fields leads
there, and that is also what `embeds` answers. -/
theorem Model.search_decides (model : Model) (start goal : String) :
    (∀ more, Search.run model goal (model.heldCount + 2 + more) (.start start) =
      some (model.embeds start goal)) ∧
    (model.embeds start goal = true ↔ model.LeadsTo start goal) := by
  refine ⟨fun more => ?_, model.embeds_eq_true_iff start goal⟩
  have sound := Search.Sound.begin model start goal
  have budget : (Search.start start).budget model = 1 + model.heldCount := by
    rw [Search.budget, Search.start, Search.unread_empty]
    rfl
  obtain ⟨found, ran, decides⟩ := sound.run (model.heldCount + 2 + more) (by omega)
  rw [ran, Option.some.injEq, Bool.eq_iff_iff, decides, model.embeds_eq_true_iff]

/-- A circle of three records, one of which has two ways into it. -/
def ring : Model where
  decls :=
    [ .record ⟨"a", [⟨"x", .named "b", "x"⟩, ⟨"y", .named "b", "y"⟩, ⟨"z", .named "c", "z"⟩]⟩,
      .record ⟨"b", [⟨"x", .named "c", "x"⟩]⟩,
      .record ⟨"c", [⟨"x", .named "a", "x"⟩]⟩ ]
  valid := by decide

example : ring.heldCount = 5 ∧ Search.run ring "d" 7 (.start "a") = some false ∧
    Search.run ring "d" 6 (.start "a") = none ∧ Search.run ring "c" 7 (.start "b") = some true := by
  decide +kernel

end WireSchema
