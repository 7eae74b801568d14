/-
# Theory.Pruning -- a list that is pruned while it grows

`keep t` drops elements of a list at time `t`.  `Absorbs` says that what a later time keeps does not
depend on an earlier pruning of a first part of the list, for lists in order.

Then a list that is pruned at any times while it grows keeps, at a time that is not before them,
what the list keeps that never was pruned (`Absorbs.keep_run`).  `absorbs_filter` is the rule that
drops what lies before a cutoff, `Absorbs.rtake` a rule with a limit on the length behind it.
-/
import Mathlib.Data.List.DropRight
import Mathlib.Data.List.Induction

namespace Cronwatch.Theory.Pruning

set_option autoImplicit false

universe u v

variable {α : Type u} {τ : Type v}

inductive Event (α : Type u) (τ : Type v) where
  | added (a : α)
  | pruned (t : τ)

def Event.added? : Event α τ → Option α
  | .added a => some a
  | .pruned _ => none

def Event.time? : Event α τ → Option τ
  | .added _ => none
  | .pruned t => some t

section Run

variable (keep : τ → List α → List α)

def step (l : List α) : Event α τ → List α
  | .added a => l ++ [a]
  | .pruned t => keep t l

def run (events : List (Event α τ)) : List α := events.foldl (step keep) []

theorem run_append_single (before : List (Event α τ)) (event : Event α τ) :
    run keep (before ++ [event]) = step keep (run keep before) event := by
  rw [run, List.foldl_append]
  rfl

/-- Where nothing is dropped, the list has all that was added. -/
theorem run_of_keep_eq (all : ∀ t l, keep t l = l) (events : List (Event α τ)) :
    run keep events = events.filterMap Event.added? := by
  induction events using List.reverseRecOn with
  | nil => rfl
  | append_singleton before event ih =>
      rw [run_append_single, List.filterMap_append, ih]
      cases event with
      | added a => rfl
      | pruned t => exact (all t _).trans (List.append_nil _).symm

end Run

variable [LE τ]

/-- Pruning the first part of a list at `t` makes no difference at `t'`. -/
structure Absorbs (r : α → α → Prop) (keep : τ → List α → List α) : Prop where
  sublist : ∀ t l, (keep t l).Sublist l
  absorb : ∀ t t' l more, t ≤ t' → (l ++ more).Pairwise r →
    keep t' (keep t l ++ more) = keep t' (l ++ more)

section Runs

variable {r : α → α → Prop} {keep : τ → List α → List α}

theorem Absorbs.run_sublist (absorbs : Absorbs r keep) (events : List (Event α τ)) :
    (run keep events).Sublist (events.filterMap Event.added?) := by
  induction events using List.reverseRecOn with
  | nil => exact .slnil
  | append_singleton before event ih =>
      rw [run_append_single, List.filterMap_append]
      cases event with
      | added a => exact ih.append (.refl [a])
      | pruned t => exact ((absorbs.sublist t _).trans ih).trans (List.sublist_append_left _ _)

/-- The prunings of the first part of a list are absorbed by one of the whole. -/
theorem Absorbs.keep_run_append (absorbs : Absorbs r keep) {events : List (Event α τ)} {now : τ}
    (later : ∀ t ∈ events.filterMap Event.time?, t ≤ now) (more : List α)
    (inOrder : (events.filterMap Event.added? ++ more).Pairwise r) :
    keep now (run keep events ++ more) = keep now (events.filterMap Event.added? ++ more) := by
  induction events using List.reverseRecOn generalizing more with
  | nil => rfl
  | append_singleton before event ih =>
      rw [List.filterMap_append, List.forall_mem_append] at later
      rw [List.filterMap_append, List.append_assoc] at inOrder ⊢
      rw [run_append_single]
      cases event with
      | added a =>
          rw [step, List.append_assoc]
          exact ih later.1 ([a] ++ more) inOrder
      | pruned t =>
          have sub := (absorbs.run_sublist before).append (List.Sublist.refl more)
          have earlier : t ≤ now := later.2 t List.mem_cons_self
          rw [step, absorbs.absorb t now _ more earlier (inOrder.sublist sub)]
          exact ih later.1 more inOrder

/-- **Pruning as the list grows** is pruning it once. -/
theorem Absorbs.keep_run (absorbs : Absorbs r keep) {events : List (Event α τ)} {now : τ}
    (later : ∀ t ∈ events.filterMap Event.time?, t ≤ now)
    (inOrder : (events.filterMap Event.added?).Pairwise r) :
    keep now (run keep events) = keep now (events.filterMap Event.added?) := by
  have whole := absorbs.keep_run_append later [] (by rwa [List.append_nil])
  rwa [List.append_nil, List.append_nil] at whole

end Runs

/-! ## Rules -/

/-- What a later time drops it drops again. -/
theorem absorbs_filter (r : α → α → Prop) {kept : τ → α → Bool}
    (drops : ∀ t t' a, t ≤ t' → kept t' a = true → kept t a = true) :
    Absorbs r fun t l => l.filter (kept t) where
  sublist _ _ := List.filter_sublist
  absorb t t' l more later _ := by
    rw [List.filter_append, List.filter_append, List.filter_filter]
    congr 1
    apply List.filter_congr
    intro a _
    cases now : kept t' a with
    | false => rfl
    | true => rw [drops t t' a later now, Bool.and_self]

/-- The rule that drops nothing. -/
theorem absorbs_all (r : α → α → Prop) : Absorbs r fun (_ : τ) (l : List α) => l where
  sublist _ _ := .refl _
  absorb _ _ _ _ _ _ := rfl

/-- Of the last elements of a list only the last ones of its first part can be some. -/
theorem rtake_append_rtake (n : Nat) (l more : List α) : (l.rtake n ++ more).rtake n = (l ++ more).rtake n := by
  rw [List.rtake, List.rtake, List.rtake, List.drop_append, List.drop_append, List.drop_drop,
    List.length_append, List.length_append, List.length_drop]
  congr 2 <;> omega

/-- **A limit on the length** behind a rule that commutes with it. -/
theorem Absorbs.rtake {r : α → α → Prop} {keep : τ → List α → List α} (absorbs : Absorbs r keep) (n : Nat)
    (commutes : ∀ t l, l.Pairwise r → keep t (l.rtake n) = (keep t l).rtake n)
    (splits : ∀ t l more, keep t (l ++ more) = keep t l ++ keep t more) :
    Absorbs r fun t l => (keep t l).rtake n where
  sublist t l := (List.drop_sublist _ _).trans (absorbs.sublist t l)
  absorb t t' l more later inOrder := by
    have first : (keep t l).Pairwise r :=
      (List.pairwise_append.mp inOrder).1.sublist (absorbs.sublist t l)
    calc (keep t' ((keep t l).rtake n ++ more)).rtake n
        = ((keep t' (keep t l)).rtake n ++ keep t' more).rtake n := by rw [splits, commutes t' _ first]
      _ = (keep t' (keep t l) ++ keep t' more).rtake n := rtake_append_rtake n _ _
      _ = (keep t' (keep t l ++ more)).rtake n := by rw [splits]
      _ = (keep t' (l ++ more)).rtake n := by rw [absorbs.absorb t t' l more later inOrder]

end Cronwatch.Theory.Pruning
