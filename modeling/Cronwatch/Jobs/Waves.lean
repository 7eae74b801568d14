/-
# Jobs.Waves -- the rounds of `ready_to_run` are the earliest schedule

`round k` is what `ready_to_run` returns once everything it returned before has completed.  A
caller need not complete all of it: a job may fail, or wait for a free slot, and is then returned
again.  `Steps` is such a run.

`rounds_earliest` says that no run gets ahead of the rounds, and which jobs a round holds: those
below which the longest chain of dependencies has the number of the round as its length.
-/
import Cronwatch.Jobs.Dependencies

namespace Cronwatch.Jobs.DependencyGraph

set_option autoImplicit false

open Cronwatch.Theory Cronwatch.Runtime Relation

variable (g : DependencyGraph)

/-- What has completed, step by step, where each step completes some of the jobs that are ready. -/
structure Steps (completed : Nat → Finset String) : Prop where
  start : completed 0 = ∅
  next : ∀ i, ∀ x ∈ completed (i + 1), x ∈ completed i ∨ x ∈ g.readyToRun (completed i)

variable {g}

/-- A job that is ready stays ready until it has completed. -/
theorem ready_of_subset {completed more : Finset String} (subset : completed ⊆ more) {x : String}
    (ready : x ∈ g.readyToRun completed) : x ∈ more ∨ x ∈ g.readyToRun more := by
  obtain ⟨declared, -, satisfied⟩ := (g.mem_readyToRun completed x).mp ready
  by_cases done : x ∈ more
  · exact .inl done
  · right
    rw [mem_readyToRun]
    exact ⟨declared, done, fun dep edge => subset (satisfied dep edge)⟩

theorem Steps.subset {completed : Nat → Finset String} (steps : g.Steps completed) (k : Nat) :
    completed k ⊆ g.completedAfter k := by
  induction k with
  | zero => rw [steps.start]; exact Finset.empty_subset _
  | succ k ih =>
      intro x member
      rw [mem_completedAfter_succ]
      rcases steps.next k x member with before | ready
      · exact .inl (ih before)
      · exact ready_of_subset ih ready

/-- A chain of `n` dependencies takes more than `n` rounds. -/
theorem lt_of_chain {n : Nat} {x : String} (chain : Chain g.DependsOn n x) :
    ∀ k, x ∈ g.completedAfter k → n < k := by
  induction chain with
  | here x =>
      intro k complete
      cases k with
      | zero => cases complete
      | succ k => exact k.succ_pos
  | step edge _ ih =>
      intro k complete
      obtain ⟨i, before, returned⟩ := (g.mem_completedAfter_iff k _).mp complete
      have satisfied := ((g.mem_readyToRun _ _).mp returned).2.2 _ edge
      have := ih i satisfied
      omega

/-- A job that had to wait for a round has a dependency in the round before. -/
theorem exists_dependency {k : Nat} {x : String} (returned : x ∈ g.round (k + 1)) :
    ∃ dep, g.DependsOn x dep ∧ dep ∈ g.round k := by
  obtain ⟨declared, absent, satisfied⟩ := (g.mem_readyToRun _ x).mp returned
  rw [mem_completedAfter_succ, not_or] at absent
  have notYet := absent.2
  rw [round, mem_readyToRun] at notYet
  by_contra none
  refine notYet ⟨declared, absent.1, fun dep edge => ?_⟩
  rcases (g.mem_completedAfter_succ k dep).mp (satisfied dep edge) with before | now
  · exact before
  · exact absurd ⟨dep, edge, now⟩ none

theorem longest_of_round (k : Nat) : ∀ x ∈ g.round k, Longest g.DependsOn k x := by
  have reached : ∀ x ∈ g.round k, Chain g.DependsOn k x := by
    induction k with
    | zero => exact fun x _ => .here x
    | succ k ih =>
        intro x returned
        obtain ⟨dep, edge, before⟩ := exists_dependency returned
        exact .step edge (ih dep before)
  intro x returned
  refine ⟨reached x returned, fun longer => ?_⟩
  have complete := (g.mem_completedAfter_succ k x).mpr (.inr returned)
  exact lt_irrefl _ (lt_of_chain longer (k + 1) complete)

/-- **The rounds are the earliest schedule.**  Round `k` holds exactly the runnable jobs whose
longest chain of dependencies has `k` links, and whichever of the ready jobs complete in each
step, after `k` steps nothing has completed that the first `k` rounds do not return. -/
theorem rounds_earliest (g : DependencyGraph) :
    (∀ k x, x ∈ g.round k ↔ g.Runnable x ∧ Longest g.DependsOn k x) ∧
      ∀ completed, g.Steps completed → ∀ k, completed k ⊆ g.completedAfter k := by
  refine ⟨fun k x => ⟨fun returned => ?_, fun ⟨runnable, longest⟩ => ?_⟩,
    fun _ steps k => steps.subset k⟩
  · exact ⟨g.runnable_of_round returned, longest_of_round k x returned⟩
  · obtain ⟨i, -, returned⟩ := (g.mem_completedAfter_iff _ x).mp (g.complete_of_runnable runnable)
    rw [longest.unique (longest_of_round i x returned)]
    exact returned

end Cronwatch.Jobs.DependencyGraph
