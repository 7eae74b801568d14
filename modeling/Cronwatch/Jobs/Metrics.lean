/-
# Jobs.Metrics -- counters of the runs of each job

`MetricsCollector.record` makes the counters of a job at its first result and adds every
result to them.  A job without results has no counters.  Durations are exact sums.
-/
import Cronwatch.Jobs.Execution
import Cronwatch.Theory.Dict
import Mathlib.Algebra.Order.Ring.Rat
import Mathlib.Data.List.Induction

namespace Cronwatch.Jobs

set_option autoImplicit false

open Cronwatch.Theory

structure JobMetrics where
  totalRuns : Nat := 0
  totalFailures : Nat := 0
  totalDurationSeconds : ℚ := 0
  lastExitCode : Option Int := none

namespace JobMetrics

def successRate (m : JobMetrics) : Option ℚ :=
  if m.totalRuns = 0 then none else some ((m.totalRuns - m.totalFailures) / m.totalRuns)

def averageDuration (m : JobMetrics) : Option ℚ :=
  if m.totalRuns = 0 then none else some (m.totalDurationSeconds / m.totalRuns)

/-- One result more. -/
def add (result : ExecutionResult) (m : JobMetrics) : JobMetrics where
  totalRuns := m.totalRuns + 1
  totalFailures := if result.success then m.totalFailures else m.totalFailures + 1
  totalDurationSeconds := m.totalDurationSeconds + result.durationSeconds
  lastExitCode := some result.exitCode

end JobMetrics

structure MetricsCollector where
  data : Dict String JobMetrics := .empty

namespace MetricsCollector

def record (collector : MetricsCollector) (result : ExecutionResult) : MetricsCollector where
  data := collector.data.set result.jobName
    (((collector.data.get? result.jobName).getD {}).add result)

/-- `get(job_name)`, a copy. -/
def get (jobName : String) (collector : MetricsCollector) : Option JobMetrics :=
  collector.data.get? jobName

/-- `reset(job_name)`, and of all jobs where none is given. -/
def reset (jobName : Option String) (collector : MetricsCollector) : MetricsCollector where
  data :=
    match jobName with
    | none => .empty
    | some jobName => collector.data.erase jobName

/-- A collector that has been fed these results. -/
def fed (results : List ExecutionResult) : MetricsCollector := results.foldl record {}

theorem fed_append_single (before : List ExecutionResult) (result : ExecutionResult) :
    fed (before ++ [result]) = (fed before).record result := by
  rw [fed, List.foldl_append]
  rfl

/-- **The counters of a job** are sums over its results. -/
theorem get_fed (results : List ExecutionResult) (jobName : String) :
    (((fed results).get jobName).getD {}).totalRuns =
        results.countP (fun result => result.jobName = jobName) ∧
      (((fed results).get jobName).getD {}).totalFailures =
        results.countP fun result => !result.success && result.jobName = jobName := by
  induction results using List.reverseRecOn with
  | nil => exact ⟨rfl, rfl⟩
  | append_singleton before result ih =>
      rw [fed_append_single, get, record, Dict.get?_set, List.countP_append, List.countP_append, ← ih.1, ← ih.2]
      by_cases same : jobName = result.jobName
      · subst same
        rw [if_pos rfl]
        cases succeeded : result.success <;> simp [JobMetrics.add, get, succeeded]
      · have other : ¬ result.jobName = jobName := fun eq => same eq.symm
        simp [get, same, other]

/-- Only jobs with results have counters. -/
theorem get_fed_isSome_iff (results : List ExecutionResult) (jobName : String) :
    ((fed results).get jobName).isSome ↔ ∃ result ∈ results, result.jobName = jobName := by
  induction results using List.reverseRecOn with
  | nil => simp [fed, get]
  | append_singleton before result ih =>
      rw [get] at ih
      rw [fed_append_single, get, record, Dict.get?_set]
      by_cases same : jobName = result.jobName
      · simp [same]
      · have other : ¬ result.jobName = jobName := fun eq => same eq.symm
        simp [same, other, ih]

end MetricsCollector

end Cronwatch.Jobs
