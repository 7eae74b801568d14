/-
# Theory.OrderStatistics -- the items of a list in ascending order

`nth l k` is the item with `k` others before it when the list is sorted.  It is at most `v`
exactly when more than `k` items are (`nth_le_iff`), which turns statements about shares of
a list into comparisons of two order statistics.
-/
import Mathlib.Data.List.Sort

namespace Cronwatch.Theory

set_option autoImplicit false

universe u

variable {α : Type u} [LinearOrder α]

def nth (l : List α) (k : Nat) : Option α := (l.insertionSort (· ≤ ·))[k]?

theorem nth_isSome_iff (l : List α) (k : Nat) : (nth l k).isSome ↔ k < l.length := by
  rw [nth, isSome_getElem?, List.length_insertionSort]

theorem mem_of_nth {l : List α} {k : Nat} {x : α} (at_ : nth l k = some x) : x ∈ l :=
  (List.mem_insertionSort _).mp (List.mem_of_getElem? at_)

/-- In ascending order the items up to a value come first. -/
theorem le_iff_lt_countP {s : List α} (sorted : s.Pairwise (· ≤ ·)) {k : Nat} {x : α}
    (at_ : s[k]? = some x) (v : α) : x ≤ v ↔ k < s.countP (· ≤ v) := by
  induction s generalizing k with
  | nil => cases at_
  | cons first rest ih =>
      rw [List.pairwise_cons] at sorted
      by_cases within : first ≤ v
      · rw [List.countP_cons_of_pos (by simpa using within)]
        cases k with
        | zero =>
            cases at_
            simpa using within
        | succ k =>
            rw [List.getElem?_cons_succ] at at_
            rw [ih sorted.2 at_, Nat.add_lt_add_iff_right]
      · have none_ : ∀ y ∈ first :: rest, ¬ y ≤ v := by
          rw [List.forall_mem_cons]
          exact ⟨within, fun y later upTo => within ((sorted.1 y later).trans upTo)⟩
        have above : ¬ x ≤ v := none_ x (List.mem_of_getElem? at_)
        have count : (first :: rest).countP (· ≤ v) = 0 :=
          List.countP_eq_zero.mpr (by simpa using none_)
        rw [count]
        simp [above]

/-- **An order statistic within a value** is a count of the items within it. -/
theorem nth_le_iff {l : List α} {k : Nat} {x : α} (at_ : nth l k = some x) (v : α) :
    x ≤ v ↔ k < l.countP (· ≤ v) := by
  have sorted := List.pairwise_insertionSort (· ≤ ·) l
  rw [le_iff_lt_countP sorted at_ v, (List.perm_insertionSort (· ≤ ·) l).countP_eq]

theorem nth_mono {l : List α} {k k' : Nat} (le : k ≤ k') {x x' : α} (at_ : nth l k = some x)
    (at_' : nth l k' = some x') : x ≤ x' :=
  (nth_le_iff at_ x').mpr (le.trans_lt ((nth_le_iff at_' x').mp le_rfl))

theorem nth_inj {l : List α} (distinct : l.Nodup) {k k' : Nat} (lt : k < l.length)
    (lt' : k' < l.length) : nth l k = nth l k' ↔ k = k' := by
  have sorted : (l.insertionSort (· ≤ ·)).Nodup :=
    (List.perm_insertionSort (· ≤ ·) l).nodup_iff.mpr distinct
  rw [← List.length_insertionSort (· ≤ ·) l] at lt lt'
  rw [nth, nth, List.getElem?_eq_getElem lt, List.getElem?_eq_getElem lt', Option.some.injEq,
    sorted.getElem_inj_iff]

end Cronwatch.Theory
