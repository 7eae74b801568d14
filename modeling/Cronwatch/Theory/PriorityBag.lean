/-
# Theory.PriorityBag -- a multiset of items ordered by a key

The abstract object a priority queue stands for: a multiset, from which an item of
least key is taken.  `Step` says what each operation may answer and what it leaves;
several answers are allowed where items are level.  `Run` strings steps together,
and `Run.conserved` is the account of a run: what was there and what was pushed is
what was returned and what is left.
-/
import Mathlib.Algebra.Order.Group.Multiset
import Mathlib.Algebra.BigOperators.Group.List.Basic
import Mathlib.Order.Defs.LinearOrder

namespace Cronwatch.Theory.PriorityBag

set_option autoImplicit false

universe u v

variable {α : Type u} {κ : Type v} [LinearOrder κ] (key : α → κ)

/-- `popUpTo b` takes one item whose key is at most `b`, `drainUpTo b` takes all. -/
inductive Op (α : Type u) (κ : Type v) where
  | push (item : α)
  | peek
  | popUpTo (bound : κ)
  | drainUpTo (bound : κ)

inductive Answer (α : Type u) where
  | done
  | item (x : Option α)
  | items (xs : List α)

/-- `x` is among the items and none has a smaller key. -/
def Least (m : Multiset α) (x : α) : Prop := x ∈ m ∧ ∀ y ∈ m, key x ≤ key y

inductive Step : Multiset α → Op α κ → Answer α → Multiset α → Prop where
  | push (m : Multiset α) (x : α) : Step m (.push x) .done (x ::ₘ m)
  | peekEmpty : Step 0 .peek (.item none) 0
  | peek {m : Multiset α} {x : α} (least : Least key m x) : Step m .peek (.item (some x)) m
  | popNone {m : Multiset α} {b : κ} (later : ∀ y ∈ m, b < key y) :
      Step m (.popUpTo b) (.item none) m
  | popSome {m : Multiset α} {x : α} {b : κ} (least : Least key (x ::ₘ m) x) (due : key x ≤ b) :
      Step (x ::ₘ m) (.popUpTo b) (.item (some x)) m
  | drain {m : Multiset α} {xs : List α} {b : κ} (sorted : xs.Pairwise fun x y => key x ≤ key y)
      (due : ∀ x ∈ xs, key x ≤ b) (later : ∀ y ∈ m, b < key y) :
      Step (↑xs + m) (.drainUpTo b) (.items xs) m

/-- A run: each operation with its answer. -/
inductive Run : Multiset α → List (Op α κ × Answer α) → Multiset α → Prop where
  | nil (m : Multiset α) : Run m [] m
  | cons {m m₁ m₂ : Multiset α} {op : Op α κ} {answer : Answer α}
      {rest : List (Op α κ × Answer α)} (step : Step key m op answer m₁) (tail : Run m₁ rest m₂) :
      Run m ((op, answer) :: rest) m₂

/-- What an operation adds. -/
def Op.pushed : Op α κ → Multiset α
  | .push x => {x}
  | _ => 0

/-- What an operation takes out, given its answer: a peek takes nothing. -/
def taken : Op α κ → Answer α → Multiset α
  | .popUpTo _, .item (some x) => {x}
  | .drainUpTo _, .items xs => ↑xs
  | _, _ => 0

variable {key}

theorem Step.conserved {m m' : Multiset α} {op : Op α κ} {answer : Answer α}
    (step : Step key m op answer m') : m + op.pushed = taken op answer + m' := by
  cases step with
  | push m x =>
      show m + {x} = 0 + x ::ₘ m
      rw [zero_add, add_comm, Multiset.singleton_add]
  | peekEmpty => rfl
  | peek least => simp [Op.pushed, taken]
  | popNone later => simp [Op.pushed, taken]
  | popSome least due => simp [Op.pushed, taken]
  | drain sorted due later => simp [Op.pushed, taken]

/-- **The account of a run**: items there and pushed are items taken and left. -/
theorem Run.conserved {m m' : Multiset α} {trace : List (Op α κ × Answer α)}
    (run : Run key m trace m') :
    m + (trace.map fun e => e.1.pushed).sum = (trace.map fun e => taken e.1 e.2).sum + m' := by
  induction run with
  | nil m => simp
  | cons step tail ih =>
      rename_i m m₁ m₂ op answer rest
      rw [List.map_cons, List.map_cons, List.sum_cons, List.sum_cons]
      calc m + (op.pushed + (rest.map fun e => e.1.pushed).sum)
          = (m + op.pushed) + (rest.map fun e => e.1.pushed).sum := (add_assoc _ _ _).symm
        _ = taken op answer + (m₁ + (rest.map fun e => e.1.pushed).sum) := by
            rw [step.conserved, add_assoc]
        _ = taken op answer + (rest.map fun e => taken e.1 e.2).sum + m₂ := by
            rw [ih, add_assoc]

end Cronwatch.Theory.PriorityBag
