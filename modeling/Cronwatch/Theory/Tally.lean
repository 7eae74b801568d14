/-
# Theory.Tally -- one value per key, kept by a component with other things to do

A component responds to events.  Some events tell it a report; every report moves the
values of the keys by `after`.  Other events may touch the value of a key or leave it.
For a key that nothing else touches, the value is what the reports make of it
(`view_run`), so two components that are told the same agree.
-/
import Mathlib.Logic.Basic

namespace Cronwatch.Theory

set_option autoImplicit false

universe u v w x y

structure Tally (τ : Type u) (ε : Type v) (κ : Type w) (ρ : Type x) (ν : Type y) where
  respond : τ → ε → τ
  view : τ → κ → ν
  /-- The report that the event carries. -/
  told : ε → Option ρ
  /-- The event may change the value of the key in another way. -/
  touches : ε → κ → Prop
  after : κ → ν → ρ → ν
  view_told : ∀ t e r k, told e = some r → view (respond t e) k = after k (view t k) r
  view_untold : ∀ t e k, told e = none → ¬ touches e k → view (respond t e) k = view t k

namespace Tally

variable {τ : Type u} {ε : Type v} {κ : Type w} {ρ : Type x} {ν : Type y}

def run (m : Tally τ ε κ ρ ν) (t : τ) (es : List ε) : τ := es.foldl m.respond t

/-- **The value of a key** after a run in which nothing else touches it. -/
theorem view_run (m : Tally τ ε κ ρ ν) (t : τ) {k : κ} {es : List ε}
    (untouched : ∀ e ∈ es, ¬ m.touches e k) :
    m.view (m.run t es) k = (es.filterMap m.told).foldl (m.after k) (m.view t k) := by
  induction es generalizing t with
  | nil => rfl
  | cons e rest ih =>
      have later := ih (m.respond t e) fun e' member => untouched e' (List.mem_cons_of_mem e member)
      cases report : m.told e with
      | none =>
          rw [m.view_untold t e k report (untouched e List.mem_cons_self)] at later
          rwa [List.filterMap_cons_none report]
      | some r =>
          rw [m.view_told t e r k report] at later
          rwa [List.filterMap_cons_some report]

end Tally

end Cronwatch.Theory
