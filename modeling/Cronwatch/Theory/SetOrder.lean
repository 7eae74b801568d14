/-
# Theory.SetOrder -- the order in which a set is iterated

A `SetOrder` iterates the set of a list in an order of its own, every element once.  What
`max` with a key takes from such an iteration is the first of the greatest elements in that
order.  It is the first of them in the list exactly when the order visits that one first
(`argmax_visit_iff`), and in every order exactly when there is no other
(`forall_argmax_visit_iff`).
-/
import Cronwatch.Theory.Dict
import Mathlib.Data.List.MinMax

namespace Cronwatch.Theory

set_option autoImplicit false

universe u v

/-- How `set(l)` is iterated. -/
structure SetOrder (α : Type u) where
  visit : List α → Enumeration α
  mem_visit : ∀ l x, x ∈ (visit l).elements ↔ x ∈ l

namespace SetOrder

variable {α : Type u} {β : Type v} [DecidableEq α] [LinearOrder β]

/-- The order of first occurrence, but with `a` in front where the list has it. -/
def startingWith (a : α) : SetOrder α where
  visit l := if a ∈ l then
      { elements := a :: (Enumeration.ofList (l.filter (· ≠ a))).elements
        nodup := List.nodup_cons.mpr ⟨by simp, (Enumeration.ofList _).nodup⟩ }
    else .ofList l
  mem_visit l x := by
    split
    · rename_i member
      by_cases same : x = a
      · subst same
        simpa using member
      · simp [same]
    · exact Enumeration.mem_ofList l x

theorem visit_startingWith {a : α} {l : List α} (member : a ∈ l) :
    ∃ rest, ((startingWith a).visit l).elements = a :: rest := by
  refine ⟨(Enumeration.ofList (l.filter (· ≠ a))).elements, ?_⟩
  show (if a ∈ l then _ else _ : Enumeration α).elements = _
  rw [if_pos member]

/-- An element that none exceeds is taken when it is visited first. -/
theorem argmax_startingWith {f : α → β} {a : α} {l : List α} (member : a ∈ l)
    (greatest : ∀ b ∈ l, f b ≤ f a) : ((startingWith a).visit l).elements.argmax f = some a := by
  obtain ⟨rest, begins⟩ := visit_startingWith member
  have among : a ∈ ((startingWith a).visit l).elements := ((startingWith a).mem_visit l a).mpr member
  refine List.argmax_eq_some_iff.mpr ⟨among, fun b visited => ?_, fun b _ _ => ?_⟩
  · exact greatest b (((startingWith a).mem_visit l b).mp visited)
  · rw [begins, List.idxOf_cons_self]
    exact Nat.zero_le _

/-- **In one order** the first of the greatest in the list is taken when it is visited before
the others. -/
theorem argmax_visit_iff (order : SetOrder α) (f : α → β) {l : List α} {a : α}
    (first : l.argmax f = some a) :
    (order.visit l).elements.argmax f = some a ↔ ∀ b ∈ l, f a ≤ f b →
      (order.visit l).elements.idxOf a ≤ (order.visit l).elements.idxOf b := by
  obtain ⟨member, greatest, -⟩ := List.argmax_eq_some_iff.mp first
  rw [List.argmax_eq_some_iff]
  simp only [order.mem_visit]
  exact ⟨fun taken => taken.2.2, fun before => ⟨member, greatest, before⟩⟩

/-- **In every order** when there is only one. -/
theorem forall_argmax_visit_iff (f : α → β) (l : List α) :
    (∀ order : SetOrder α, (order.visit l).elements.argmax f = l.argmax f) ↔
      ∀ a ∈ l, ∀ b ∈ l, (∀ c ∈ l, f c ≤ f a) → (∀ c ∈ l, f c ≤ f b) → a = b := by
  constructor
  · intro taken a member b member' greatest greatest'
    have one := (argmax_startingWith member greatest).symm.trans (taken (startingWith a))
    have other := (argmax_startingWith member' greatest').symm.trans (taken (startingWith b))
    exact Option.some_inj.mp (one.trans other.symm)
  · intro unique order
    cases first : l.argmax f with
    | none =>
        rw [List.argmax_eq_none] at first
        subst first
        rw [List.argmax_eq_none, List.eq_nil_iff_forall_not_mem]
        exact fun x visited => absurd ((order.mem_visit [] x).mp visited) List.not_mem_nil
    | some a =>
        obtain ⟨member, greatest, -⟩ := List.argmax_eq_some_iff.mp first
        apply (argmax_visit_iff order f first).mpr
        intro b member' least
        rw [unique a member b member' greatest fun c among => (greatest c among).trans least]

end SetOrder

end Cronwatch.Theory
