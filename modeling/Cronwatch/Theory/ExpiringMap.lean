/-
# Theory.ExpiringMap -- maps whose entries hold until a given time

An entry holds until its end; an entry with no end holds for ever.  A store that is
free to drop entries that are over keeps less than one that never does, and the two
still agree on what holds from now on (`AgreeFrom`).

Agreement is what survives time (`AgreeFrom.wait`), the same write or deletion on both
sides (`AgreeFrom.update`) and a purge on one side (`AgreeFrom.purge`).  `SameFrom` is the same
for entries that carry more than their end: the two stores show the same entry for as long as it
holds.
-/
import Mathlib.Logic.Function.Basic
import Mathlib.Order.Lattice

namespace Cronwatch.Theory.ExpiringMap

set_option autoImplicit false

universe u v w

variable {κ : Type u} {τ : Type v} [LinearOrder τ]

/-- The end has not come. -/
def Open (ending : Option τ) (now : τ) : Prop := ∀ t ∈ ending, now < t

instance (ending : Option τ) (now : τ) : Decidable (Open ending now) :=
  inferInstanceAs (Decidable (∀ t ∈ ending, now < t))

@[simp] theorem open_none (now : τ) : Open none now := by
  intro t impossible
  cases impossible

@[simp] theorem open_some (t now : τ) : Open (some t) now ↔ now < t := by
  simp [Open]

/-- An end that has come stays so. -/
theorem Open.of_le {ending : Option τ} {now later : τ} (le : now ≤ later)
    (stillOpen : Open ending later) : Open ending now :=
  fun t is => le.trans_lt (stillOpen t is)

/-- The key has an entry and its end has not come. -/
def Holds (m : κ → Option (Option τ)) (k : κ) (now : τ) : Prop := ∃ ending ∈ m k, Open ending now

theorem holds_of_none {m : κ → Option (Option τ)} {k : κ} (absent : m k = none) (now : τ) :
    ¬ Holds m k now := by
  rintro ⟨ending, present, -⟩
  rw [absent] at present
  cases present

theorem holds_of_some {m : κ → Option (Option τ)} {k : κ} {ending : Option τ}
    (present : m k = some ending) (now : τ) : Holds m k now ↔ Open ending now := by
  constructor
  · rintro ⟨other, held, isOpen⟩
    rw [present] at held
    cases held
    exact isOpen
  · exact fun isOpen => ⟨ending, present, isOpen⟩

instance (m : κ → Option (Option τ)) (k : κ) (now : τ) : Decidable (Holds m k now) :=
  match present : m k with
  | none => .isFalse (holds_of_none present now)
  | some _ => decidable_of_iff _ (holds_of_some present now).symm

/-- The two maps have the same keys hold at every time from `now` on. -/
def AgreeFrom (now : τ) (m m' : κ → Option (Option τ)) : Prop :=
  ∀ k t, now ≤ t → (Holds m k t ↔ Holds m' k t)

namespace AgreeFrom

variable {now later : τ} {m m' : κ → Option (Option τ)}

theorem refl (now : τ) (m : κ → Option (Option τ)) : AgreeFrom now m m := fun _ _ _ => Iff.rfl

theorem wait (agree : AgreeFrom now m m') (le : now ≤ later) : AgreeFrom later m m' :=
  fun k t after => agree k t (le.trans after)

/-- The same write, or the same deletion, on both sides. -/
theorem update [DecidableEq κ] (agree : AgreeFrom now m m') (k : κ) (entry : Option (Option τ)) :
    AgreeFrom now (Function.update m k entry) (Function.update m' k entry) := by
  intro k' t after
  by_cases same : k' = k
  · subst same
    simp [Holds]
  · simpa [Holds, Function.update_of_ne same] using agree k' t after

/-- Dropping, on the left, entries that are over by now. -/
theorem purge (agree : AgreeFrom now m m') {kept : κ → Option (Option τ)}
    (drops : ∀ k, kept k = m k ∨ (kept k = none ∧ ¬ Holds m k now)) : AgreeFrom now kept m' := by
  intro k t after
  rw [← agree k t after]
  rcases drops k with same | ⟨gone, over_⟩
  · simp [Holds, same]
  · refine iff_of_false (holds_of_none gone t) ?_
    rintro ⟨ending, present, isOpen⟩
    exact over_ ⟨ending, present, isOpen.of_le after⟩

end AgreeFrom

/-! ## Entries that carry more -/

section Entries

variable {ν : Type w} (ending : ν → Option τ)

/-- The entry of the key, where its end has not come. -/
def current (m : κ → Option ν) (k : κ) (now : τ) : Option ν :=
  (m k).filter fun entry => Open (ending entry) now

theorem current_of_none {m : κ → Option ν} {k : κ} (absent : m k = none) (now : τ) :
    current ending m k now = none := by
  rw [current, absent, Option.filter_none]

theorem current_of_some {m : κ → Option ν} {k : κ} {entry : ν} (present : m k = some entry)
    (now : τ) : current ending m k now = if Open (ending entry) now then some entry else none := by
  simp [current, present, Option.filter]

/-- The two maps show the same entries at every time from `now` on. -/
def SameFrom (now : τ) (m m' : κ → Option ν) : Prop :=
  ∀ k t, now ≤ t → current ending m k t = current ending m' k t

namespace SameFrom

variable {ending} {now later : τ} {m m' : κ → Option ν}

theorem refl (now : τ) (m : κ → Option ν) : SameFrom ending now m m := fun _ _ _ => rfl

theorem wait (same : SameFrom ending now m m') (le : now ≤ later) : SameFrom ending later m m' :=
  fun k t after => same k t (le.trans after)

/-- The same write, or the same deletion, on both sides. -/
theorem update [DecidableEq κ] (same : SameFrom ending now m m') (k : κ) (entry : Option ν) :
    SameFrom ending now (Function.update m k entry) (Function.update m' k entry) := by
  intro k' t after
  by_cases here : k' = k
  · subst here
    simp [current]
  · simpa [current, Function.update_of_ne here] using same k' t after

/-- Dropping, on the left, entries that are over by now. -/
theorem purge (same : SameFrom ending now m m') {kept : κ → Option ν}
    (drops : ∀ k, kept k = m k ∨ (kept k = none ∧ current ending m k now = none)) :
    SameFrom ending now kept m' := by
  intro k t after
  rw [← same k t after]
  rcases drops k with held | ⟨gone, over_⟩
  · rw [current, held, current]
  · rw [current_of_none ending gone]
    cases present : m k with
    | none => rw [current_of_none ending present]
    | some entry =>
        rw [current_of_some ending present] at over_ ⊢
        rw [if_neg]
        intro isOpen
        rw [if_pos (isOpen.of_le after)] at over_
        cases over_

end SameFrom

end Entries

end Cronwatch.Theory.ExpiringMap
