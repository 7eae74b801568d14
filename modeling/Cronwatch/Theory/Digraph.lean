/-
# Theory.Digraph -- cycles, successor-first orders and induction on acyclic graphs

A directed graph is a relation `R : α → α → Prop`.  `Cyclic R` says some vertex
reaches itself.  Two ways of showing that a part of a graph has no cycle, and of
using it:

* `SuccessorsFirst R order`: every successor of a listed vertex stands strictly
  earlier in the list.  Such a list is closed under reachability and lists no
  vertex of a cycle (`SuccessorsFirst.not_cyclic_at`).
* `acyclic_induction`: on a finite successor-closed set without cycles, a property
  that a vertex inherits from all its successors holds everywhere.

`Longest R n a` measures a vertex: the longest paths from `a` have `n` edges.
-/
import Mathlib.Logic.Relation
import Mathlib.Order.WellFoundedSet
import Mathlib.Data.List.Basic

namespace Cronwatch.Theory

set_option autoImplicit false

open Relation

universe u

variable {α : Type u}

/-- Some vertex reaches itself along at least one edge. -/
def Cyclic (R : α → α → Prop) : Prop := ∃ a, TransGen R a a

/-! ## Successor-first orders -/

section Order

variable [DecidableEq α] {R : α → α → Prop}

/-- Every successor of a listed vertex stands strictly before it. -/
def SuccessorsFirst (R : α → α → Prop) (order : List α) : Prop :=
  ∀ a ∈ order, ∀ b, R a b → order.idxOf b < order.idxOf a

theorem successorsFirst_nil : SuccessorsFirst R [] := by
  intro a member
  simp at member

namespace SuccessorsFirst

variable {order : List α}

theorem mem_of_edge (sorted : SuccessorsFirst R order) {a b : α} (member : a ∈ order)
    (edge : R a b) : b ∈ order := by
  have earlier := sorted a member b edge
  have inside : order.idxOf a < order.length := List.idxOf_lt_length_iff.mpr member
  exact List.idxOf_lt_length_iff.mp (earlier.trans inside)

/-- Along a path the positions fall strictly. -/
theorem idxOf_lt_of_transGen (sorted : SuccessorsFirst R order) {a b : α} (member : a ∈ order)
    (path : TransGen R a b) : b ∈ order ∧ order.idxOf b < order.idxOf a := by
  induction path with
  | single edge => exact ⟨sorted.mem_of_edge member edge, sorted a member _ edge⟩
  | tail _ edge ih =>
      obtain ⟨middle, before⟩ := ih
      exact ⟨sorted.mem_of_edge middle edge, (sorted _ middle _ edge).trans before⟩

theorem mem_of_reflTransGen (sorted : SuccessorsFirst R order) {a b : α} (member : a ∈ order)
    (path : ReflTransGen R a b) : b ∈ order := by
  rcases reflTransGen_iff_eq_or_transGen.mp path with rfl | proper
  · exact member
  · exact (sorted.idxOf_lt_of_transGen member proper).1

/-- A listed vertex lies on no cycle. -/
theorem not_cyclic_at (sorted : SuccessorsFirst R order) {a : α} (member : a ∈ order) :
    ¬ TransGen R a a :=
  fun cycle => lt_irrefl _ (sorted.idxOf_lt_of_transGen member cycle).2

/-- A fresh vertex whose successors are all listed may be appended. -/
theorem append_singleton (sorted : SuccessorsFirst R order) {a : α} (fresh : a ∉ order)
    (successors : ∀ b, R a b → b ∈ order) : SuccessorsFirst R (order ++ [a]) := by
  intro c member b edge
  rw [List.mem_append, List.mem_singleton] at member
  have listed : b ∈ order := by
    rcases member with old | rfl
    · exact sorted.mem_of_edge old edge
    · exact successors b edge
  rw [List.idxOf_append_of_mem listed]
  rcases member with old | rfl
  · rw [List.idxOf_append_of_mem old]
    exact sorted c old b edge
  · have bound : order.idxOf b < order.length := List.idxOf_lt_length_iff.mpr listed
    rw [List.idxOf_append_of_notMem fresh]
    omega

end SuccessorsFirst

end Order

/-! ## The length of the paths from a vertex -/

section Chains

variable {R : α → α → Prop}

/-- A path of `n` edges starts at the vertex. -/
inductive Chain (R : α → α → Prop) : Nat → α → Prop
  | here (a : α) : Chain R 0 a
  | step {n : Nat} {a b : α} (edge : R a b) (rest : Chain R n b) : Chain R (n + 1) a

/-- The longest paths from `a` have `n` edges. -/
def Longest (R : α → α → Prop) (n : Nat) (a : α) : Prop := Chain R n a ∧ ¬ Chain R (n + 1) a

theorem Chain.of_le {m n : Nat} {a : α} (chain : Chain R n a) (le : m ≤ n) : Chain R m a := by
  induction chain generalizing m with
  | here a => exact Nat.le_zero.mp le ▸ .here a
  | step edge _ ih =>
      cases m with
      | zero => exact .here _
      | succ m => exact .step edge (ih (Nat.le_of_succ_le_succ le))

theorem Longest.unique {m n : Nat} {a : α} (one : Longest R m a) (other : Longest R n a) : m = n := by
  rcases Nat.lt_trichotomy m n with less | same | more
  · exact absurd (other.1.of_le less) one.2
  · exact same
  · exact absurd (one.1.of_le more) other.2

end Chains

/-! ## Induction on a finite acyclic part -/

/-- On a finite successor-closed set without cycles, a property inherited from all
successors holds at every vertex. -/
theorem acyclic_induction {R : α → α → Prop} {S : Set α} (finite : S.Finite)
    (closed : ∀ a ∈ S, ∀ b, R a b → b ∈ S) (acyclic : ∀ a ∈ S, ¬ TransGen R a a)
    {P : α → Prop} (inherit : ∀ a ∈ S, (∀ b, R a b → P b) → P a) : ∀ a ∈ S, P a := by
  have : Finite S := finite
  let below : S → S → Prop := fun x y => TransGen R y.1 x.1
  have : IsTrans S below := ⟨fun _ _ _ xy yz => yz.trans xy⟩
  have : Std.Irrefl below := ⟨fun x cycle => acyclic x.1 x.2 cycle⟩
  have wf : WellFounded below := Finite.wellFounded_of_trans_of_irrefl below
  intro a member
  have main : ∀ x : S, P x.1 := fun x => wf.induction x fun y ih =>
    inherit y.1 y.2 fun b edge => ih ⟨b, closed y.1 y.2 b edge⟩ (.single edge)
  exact main ⟨a, member⟩

end Cronwatch.Theory
