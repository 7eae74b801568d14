/-
# Theory.Arc -- arcs of a circle

Points of a circle are integers modulo its length.  `OnArc period start ending t` goes
round from `start`: `t` is met no later than `ending`.  An arc has both its ends, and one
whose ends are equal has no other point.

The arc moves with its points (`onArc_shift`), and depends on them modulo the length only
(`onArc_emod`, `onArc_emod_right`).  For points between `0` and the length it is an interval, or what an interval
leaves over (`onArc_iff`).
-/
import Mathlib.Algebra.Order.Ring.Int

namespace Cronwatch.Theory

set_option autoImplicit false

def OnArc (period start ending t : Int) : Prop := (t - start) % period ≤ (ending - start) % period

section Arc

variable {period start ending t : Int}

instance : Decidable (OnArc period start ending t) :=
  inferInstanceAs (Decidable (_ ≤ _))

theorem onArc_shift (d : Int) :
    OnArc period (start + d) (ending + d) (t + d) ↔ OnArc period start ending t := by
  rw [OnArc, OnArc, add_sub_add_right_eq_sub, add_sub_add_right_eq_sub]

theorem onArc_emod :
    OnArc period (start % period) (ending % period) t ↔ OnArc period start ending t := by
  rw [OnArc, OnArc, Int.sub_emod_emod, ← Int.sub_emod]

theorem onArc_emod_right : OnArc period start ending (t % period) ↔ OnArc period start ending t := by
  rw [OnArc, OnArc, Int.emod_sub_emod]

/-- How far it is round the circle from one point to another. -/
theorem sub_emod_of_lt (low : 0 ≤ start) (high : start < period) (low' : 0 ≤ t)
    (high' : t < period) :
    (t - start) % period = if start ≤ t then t - start else t - start + period := by
  split
  · rename_i le
    exact Int.emod_eq_of_lt (by omega) (by omega)
  · rename_i lt
    rw [← Int.add_emod_right]
    exact Int.emod_eq_of_lt (by omega) (by omega)

/-- **An arc** is an interval, or it wraps round. -/
theorem onArc_iff (low : 0 ≤ start) (high : start < period) (low' : 0 ≤ ending)
    (high' : ending < period) (low'' : 0 ≤ t) (high'' : t < period) :
    OnArc period start ending t ↔
      if start ≤ ending then start ≤ t ∧ t ≤ ending else start ≤ t ∨ t ≤ ending := by
  rw [OnArc, sub_emod_of_lt low high low'' high'', sub_emod_of_lt low high low' high']
  split <;> split <;> omega

end Arc

end Cronwatch.Theory
