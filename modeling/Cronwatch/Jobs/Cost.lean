/-
# Jobs.Cost -- what the runs of jobs cost, and the report of it

A `CostTracker` keeps one entry per run, with the rate of the job at that time.  The report
has one summary per job.  Seconds, rates and costs are exact rational numbers.

`buildReport_addsUp`: the summaries together account for every run once, whatever order the
jobs ran in.
-/
import Mathlib.Algebra.GroupWithZero.Nat
import Mathlib.Algebra.Order.Ring.Rat
import Mathlib.Data.List.MinMax
import Mathlib.Data.String.Basic
import Cronwatch.Theory.StableSort

namespace Cronwatch.Jobs

set_option autoImplicit false

open Cronwatch.Theory

structure CostEntry where
  jobName : String
  durationSeconds : ℚ
  costPerSecond : ℚ

def CostEntry.estimatedCost (entry : CostEntry) : ℚ := entry.durationSeconds * entry.costPerSecond

structure CostPolicy where
  defaultCostPerSecond : ℚ := 0
  perJob : Dict String ℚ := .empty

def CostPolicy.rateFor (policy : CostPolicy) (jobName : String) : ℚ :=
  (policy.perJob.get? jobName).getD policy.defaultCostPerSecond

structure CostSummary where
  jobName : String
  totalCost : ℚ
  totalRuns : Nat
  totalSeconds : ℚ

def CostSummary.averageCost (summary : CostSummary) : Option ℚ :=
  if summary.totalRuns = 0 then none else some (summary.totalCost / summary.totalRuns)

structure CostTracker where
  policy : CostPolicy
  entries : List CostEntry := []

namespace CostTracker

def record (jobName : String) (durationSeconds : ℚ) (tracker : CostTracker) :
    CostEntry × CostTracker :=
  let entry : CostEntry :=
    { jobName, durationSeconds, costPerSecond := tracker.policy.rateFor jobName }
  (entry, { tracker with entries := tracker.entries ++ [entry] })

def entriesFor (jobName : String) (tracker : CostTracker) : List CostEntry :=
  tracker.entries.filter fun e => e.jobName = jobName

def summarise (jobName : String) (tracker : CostTracker) : CostSummary where
  jobName := jobName
  totalCost := ((tracker.entriesFor jobName).map CostEntry.estimatedCost).sum
  totalRuns := (tracker.entriesFor jobName).length
  totalSeconds := ((tracker.entriesFor jobName).map CostEntry.durationSeconds).sum

/-- The names of the jobs that were recorded, each once. -/
def names (tracker : CostTracker) : List String :=
  sortedSet (tracker.entries.map CostEntry.jobName)

def allSummaries (tracker : CostTracker) : List CostSummary :=
  tracker.names.map fun name => tracker.summarise name

def totalCost (tracker : CostTracker) : ℚ := (tracker.entries.map CostEntry.estimatedCost).sum

/-- A tracker after these calls of `record`, each a job and a duration. -/
def run (policy : CostPolicy) (calls : List (String × ℚ)) : CostTracker :=
  calls.foldl (fun tracker call => (tracker.record call.1 call.2).2) { policy }

end CostTracker

structure CostReport where
  summaries : List CostSummary

namespace CostReport

def totalJobs (report : CostReport) : Nat := report.summaries.length

def grandTotalCost (report : CostReport) : ℚ :=
  (report.summaries.map CostSummary.totalCost).sum

def mostExpensiveJob (report : CostReport) : Option CostSummary :=
  report.summaries.argmax CostSummary.totalCost

def cheapestJob (report : CostReport) : Option CostSummary :=
  report.summaries.argmin CostSummary.totalCost

def jobsAboveCost (threshold : ℚ) (report : CostReport) : List CostSummary :=
  report.summaries.filter fun s => threshold < s.totalCost

end CostReport

/-- `CostReporter(tracker).build_report()`. -/
def buildCostReport (tracker : CostTracker) : CostReport where
  summaries := tracker.allSummaries

/-! ## Adding up -/

namespace CostTracker

theorem run_append_single (policy : CostPolicy) (calls : List (String × ℚ)) (call : String × ℚ) :
    run policy (calls ++ [call]) = ((run policy calls).record call.1 call.2).2 := by
  rw [run, List.foldl_append]
  rfl

theorem policy_run (policy : CostPolicy) (calls : List (String × ℚ)) :
    (run policy calls).policy = policy := by
  induction calls using List.reverseRecOn with
  | nil => rfl
  | append_singleton calls call ih => rw [run_append_single, record, ih]

/-- One entry for each call. -/
theorem entries_run (policy : CostPolicy) (calls : List (String × ℚ)) :
    (run policy calls).entries = calls.map fun call =>
      { jobName := call.1, durationSeconds := call.2, costPerSecond := policy.rateFor call.1 } := by
  induction calls using List.reverseRecOn with
  | nil => rfl
  | append_singleton calls call ih =>
      rw [run_append_single, record, policy_run, ih, List.map_append]
      rfl

/-- **A sum over the jobs** of sums over their entries is the sum over all entries. -/
theorem sum_names {M : Type} [AddCommMonoid M] (f : CostEntry → M) (tracker : CostTracker) :
    (tracker.names.map fun name => ((tracker.entriesFor name).map f).sum).sum =
      (tracker.entries.map f).sum :=
  sum_by_key CostEntry.jobName f tracker.entries (nodup_sortedSet _) fun _ member =>
    mem_sortedSet.mpr (List.mem_map_of_mem member)

theorem sum_allSummaries {M : Type} [AddCommMonoid M] (f : CostEntry → M) (g : CostSummary → M)
    (tracker : CostTracker)
    (each : ∀ name, g (tracker.summarise name) = ((tracker.entriesFor name).map f).sum) :
    (tracker.allSummaries.map g).sum = (tracker.entries.map f).sum := by
  rw [← sum_names, allSummaries, List.map_map]
  refine congrArg List.sum (List.map_congr_left fun name _ => ?_)
  exact each name

end CostTracker

/-- A report that accounts for the calls. -/
structure AddsUp (policy : CostPolicy) (calls : List (String × ℚ)) (report : CostReport) :
    Prop where
  cost : report.grandTotalCost = (CostTracker.run policy calls).totalCost
  runs : (report.summaries.map CostSummary.totalRuns).sum = calls.length
  seconds : (report.summaries.map CostSummary.totalSeconds).sum = (calls.map Prod.snd).sum
  jobs : ∀ name, name ∈ report.summaries.map CostSummary.jobName ↔ name ∈ calls.map Prod.fst
  sorted : (report.summaries.map CostSummary.jobName).Pairwise (· < ·)
  mostExpensive : match report.mostExpensiveJob with
    | none => report.summaries = []
    | some most => most ∈ report.summaries ∧ ∀ s ∈ report.summaries, s.totalCost ≤ most.totalCost
  cheapest : match report.cheapestJob with
    | none => report.summaries = []
    | some least => least ∈ report.summaries ∧ ∀ s ∈ report.summaries, least.totalCost ≤ s.totalCost

theorem mostExpensive_bounds (report : CostReport) : match report.mostExpensiveJob with
    | none => report.summaries = []
    | some most => most ∈ report.summaries ∧
        ∀ s ∈ report.summaries, s.totalCost ≤ most.totalCost := by
  cases found : report.mostExpensiveJob with
  | none => exact List.argmax_eq_none.mp found
  | some most =>
      exact ⟨List.argmax_mem found, fun s member => List.le_of_mem_argmax member found⟩

theorem cheapest_bounds (report : CostReport) : match report.cheapestJob with
    | none => report.summaries = []
    | some least => least ∈ report.summaries ∧
        ∀ s ∈ report.summaries, least.totalCost ≤ s.totalCost := by
  cases found : report.cheapestJob with
  | none => exact List.argmin_eq_none.mp found
  | some least =>
      exact ⟨List.argmin_mem found, fun s member => List.le_of_mem_argmin member found⟩

/-- **The report adds up.** -/
theorem buildReport_addsUp (policy : CostPolicy) (calls : List (String × ℚ)) :
    AddsUp policy calls (buildCostReport (CostTracker.run policy calls)) := by
  have entries := CostTracker.entries_run policy calls
  generalize run : CostTracker.run policy calls = tracker at entries
  have names : (buildCostReport tracker).summaries.map CostSummary.jobName = tracker.names := by
    rw [buildCostReport, CostTracker.allSummaries, List.map_map]
    exact List.map_id _
  refine ⟨?_, ?_, ?_, fun name => ?_, ?_, mostExpensive_bounds _, cheapest_bounds _⟩
  · rw [run]
    exact CostTracker.sum_allSummaries _ _ tracker fun name => rfl
  · have ones := CostTracker.sum_allSummaries (fun _ => 1) CostSummary.totalRuns tracker
      fun name => by simp [CostTracker.summarise]
    rw [buildCostReport, ones, entries, List.map_map]
    simp [Function.comp_def]
  · have seconds := CostTracker.sum_allSummaries CostEntry.durationSeconds
      CostSummary.totalSeconds tracker fun name => rfl
    rw [buildCostReport, seconds, entries, List.map_map]
    rfl
  · rw [names, CostTracker.names, mem_sortedSet, entries, List.map_map]
    rfl
  · rw [names]
    exact pairwise_sortedSet _

end Cronwatch.Jobs
