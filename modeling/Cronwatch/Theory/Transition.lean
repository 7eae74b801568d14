/-
# Theory.Transition -- guarded runs of a transition system

A system has initial states and a partial step for every action.  `RunsTo ok s` says
that some run from an initial state ends in `s` and that each of its steps met the
guard `ok` in the state it was taken from; with the trivial guard these are the
reachable states.

`RunsTo.invariant` is the induction over runs.  `exec` runs a list of actions, and
`runsTo_exec` turns such an execution into a run.
-/
import Mathlib.Logic.Basic

namespace Cronwatch.Theory

set_option autoImplicit false

universe u v

structure TransitionSystem (σ : Type u) (α : Type v) where
  init : σ → Prop
  step : σ → α → Option σ

namespace TransitionSystem

variable {σ : Type u} {α : Type v} (m : TransitionSystem σ α) {ok : σ → α → Prop}

inductive RunsTo (ok : σ → α → Prop) : σ → Prop where
  | init {s : σ} (initial : m.init s) : RunsTo ok s
  | step {s s' : σ} (run : RunsTo ok s) (a : α) (met : ok s a) (taken : m.step s a = some s') :
      RunsTo ok s'

/-- Some run, with no guard, ends in the state. -/
def Reachable (s : σ) : Prop := m.RunsTo (fun _ _ => True) s

variable {m}

/-- An invariant of the initial states that every guarded step preserves. -/
theorem RunsTo.invariant {inv : σ → Prop} (initial : ∀ s, m.init s → inv s)
    (preserved : ∀ s a s', inv s → ok s a → m.step s a = some s' → inv s') {s : σ}
    (run : m.RunsTo ok s) : inv s := by
  induction run with
  | init start => exact initial _ start
  | step _ a met taken ih => exact preserved _ a _ ih met taken

variable (m)

/-- The state after a list of actions, when each of them can be taken. -/
def exec : List α → σ → Option σ
  | [], s => some s
  | a :: rest, s => (m.step s a).bind (exec rest)

/-- Every action of the list meets the guard in the state it is taken from. -/
def Meets (ok : σ → α → Prop) : List α → σ → Prop
  | [], _ => True
  | a :: rest, s => ok s a ∧ ∀ s' ∈ m.step s a, Meets ok rest s'

instance decidableMeets [∀ s a, Decidable (ok s a)] :
    ∀ (actions : List α) (s : σ), Decidable (m.Meets ok actions s)
  | [], _ => .isTrue trivial
  | a :: rest, s =>
      have _ := decidableMeets rest
      inferInstanceAs (Decidable (ok s a ∧ ∀ s' ∈ m.step s a, m.Meets ok rest s'))

variable {m}

theorem exec_cons {a : α} {s s' : σ} (taken : m.step s a = some s') (rest : List α) :
    m.exec (a :: rest) s = m.exec rest s' := by
  rw [exec, taken, Option.bind_some]

theorem RunsTo.exec {actions : List α} {s s' : σ} (run : m.RunsTo ok s)
    (met : m.Meets ok actions s) (executed : m.exec actions s = some s') : m.RunsTo ok s' := by
  induction actions generalizing s with
  | nil =>
      cases executed
      exact run
  | cons a rest ih =>
      obtain ⟨middle, taken, later⟩ := Option.bind_eq_some_iff.mp executed
      exact ih (.step run a met.1 taken) (met.2 middle taken) later

theorem meets_true (actions : List α) (s : σ) : m.Meets (fun _ _ => True) actions s := by
  induction actions generalizing s with
  | nil => trivial
  | cons a rest ih => exact ⟨trivial, fun s' _ => ih s'⟩

theorem reachable_of_exec {actions : List α} {s s' : σ} (initial : m.init s)
    (executed : m.exec actions s = some s') : m.Reachable s' :=
  RunsTo.exec (.init initial) (meets_true actions s) executed

end TransitionSystem

end Cronwatch.Theory
