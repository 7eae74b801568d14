/-
# Jobs.Reporter -- three counts of the failures of a job

`_summarise` counts the entries of a history whose exit code is not zero;
`build_group_report` counts the entries that are not successful, and `MetricsCollector` the
results that are not.  A run that timed out, or ended with an error, may have the exit code
zero all the same.

No entry can be made from a result, and no entry summarised: `from_result` and `_summarise`
read attributes that do not exist (`countsAgree_iff`).  With attributes that do, the counts
agree where a run with exit code zero is a success (`countsAgreeWith_iff`).
-/
import Cronwatch.Jobs.Executor
import Cronwatch.Jobs.GroupReporter
import Cronwatch.Jobs.HistoryFiles
import Cronwatch.Jobs.Metrics
import Mathlib.Data.List.ReduceOption
import Mathlib.Data.List.Sort

namespace Cronwatch.Jobs

set_option autoImplicit false

open Cronwatch.Theory Cronwatch.Runtime

structure JobSummary where
  jobName : String
  totalRuns : Nat
  successfulRuns : Nat
  failedRuns : Nat
  lastRun : Option String
  lastStatus : Option String
  avgDurationSeconds : ℚ

def JobSummary.successRate (summary : JobSummary) : ℚ :=
  if summary.totalRuns = 0 then 0 else summary.successfulRuns / summary.totalRuns * 100

/-- `entry.duration_seconds`.  The field is called `duration`. -/
def HistoryEntry.durationSeconds (_ : HistoryEntry) : Except PyException (Option ℚ) :=
  .error (.attributeError "'HistoryEntry' object has no attribute 'duration_seconds'")

namespace Reporter

/-- `_summarise(job_name, entries)`. -/
def summariseWith (durationSeconds : HistoryEntry → Except PyException (Option ℚ))
    (jobName : String) (entries : List HistoryEntry) : Except PyException JobSummary :=
  if entries.isEmpty then
    return { jobName, totalRuns := 0, successfulRuns := 0, failedRuns := 0, lastRun := none,
             lastStatus := none, avgDurationSeconds := 0 }
  else do
    let sortedEntries := entries.insertionSort fun e e' => e.startedAt ≤ e'.startedAt
    let successful := sortedEntries.filter fun e => e.exitCode = 0
    let failed := sortedEntries.filter fun e => e.exitCode ≠ 0
    let last := sortedEntries.getLast?
    let durations := (← sortedEntries.mapM durationSeconds).reduceOption
    let avgDuration := if durations = [] then 0 else durations.sum / durations.length
    return { jobName, totalRuns := sortedEntries.length, successfulRuns := successful.length,
             failedRuns := failed.length, lastRun := last.map HistoryEntry.startedAt,
             lastStatus := last.map fun e => if e.exitCode = 0 then "success" else "failure",
             avgDurationSeconds := Executor.round3 avgDuration }

def summarise (jobName : String) (entries : List HistoryEntry) : Except PyException JobSummary :=
  summariseWith HistoryEntry.durationSeconds jobName entries

/-- What is read of results and of entries. -/
structure Attributes where
  result : HistoryEntry.Attributes
  durationSeconds : HistoryEntry → Except PyException (Option ℚ)

/-- The attributes as the code spells them. -/
def asWritten : Attributes where
  result := HistoryEntry.asWritten
  durationSeconds := HistoryEntry.durationSeconds

/-- The three counts are made, and agree, on the failures and on all runs.  A job without
counters has run, and failed, no times. -/
def CountsAgreeWith (attributes : Attributes) (job : JobConfig) (keyFn : JobConfig → String)
    (results : List ExecutionResult) : Prop :=
  ∃ entries summary report group,
    results.mapM (HistoryEntry.fromResultWith attributes.result) = .ok entries ∧
    summariseWith attributes.durationSeconds job.name entries = .ok summary ∧
    GroupReport.buildGroupReport [job] entries keyFn = .ok report ∧
    report.summaries.get? (keyFn job) = some group ∧
    summary.failedRuns = group.failures ∧
    group.failures = (((MetricsCollector.fed results).get job.name).getD {}).totalFailures ∧
    summary.totalRuns = group.total ∧
    group.total = (((MetricsCollector.fed results).get job.name).getD {}).totalRuns

/-! ## The counts one by one -/

/-- What is counted of the entries. -/
theorem summariseWith_counts {durationSeconds : HistoryEntry → Except PyException (Option ℚ)}
    (present : ∀ entry, ∃ duration, durationSeconds entry = .ok duration) (jobName : String)
    (entries : List HistoryEntry) :
    ∃ summary, summariseWith durationSeconds jobName entries = .ok summary ∧
      summary.totalRuns = entries.length ∧
      summary.failedRuns = entries.countP fun e => e.exitCode ≠ 0 := by
  have read : ∀ l : List HistoryEntry, ∃ durations, l.mapM durationSeconds = .ok durations := by
    intro l
    induction l with
    | nil => exact ⟨[], rfl⟩
    | cons entry rest ih =>
        obtain ⟨duration, first⟩ := present entry
        obtain ⟨durations, others⟩ := ih
        exact ⟨duration :: durations, by rw [List.mapM_cons, first, others]; rfl⟩
  rw [summariseWith]
  cases entries with
  | nil => exact ⟨_, rfl, rfl, rfl⟩
  | cons entry rest =>
      rw [List.isEmpty_cons, if_neg (by simp)]
      obtain ⟨durations, made⟩ := read ((entry :: rest).insertionSort fun e e' =>
        e.startedAt ≤ e'.startedAt)
      have perm := List.perm_insertionSort (fun e e' : HistoryEntry => e.startedAt ≤ e'.startedAt)
        (entry :: rest)
      dsimp only
      rw [made]
      refine ⟨_, rfl, perm.length_eq, ?_⟩
      rw [← perm.countP_eq, List.countP_eq_length_filter]

/-- A report of one job has its group, with all entries of the job. -/
theorem groupReport_single (job : JobConfig) (keyFn : JobConfig → String)
    {entries : List HistoryEntry} (own : ∀ entry ∈ entries, entry.jobName = job.name) :
    ∃ report group, GroupReport.buildGroupReport [job] entries keyFn = .ok report ∧
      report.summaries.get? (keyFn job) = some group ∧ group.total = entries.length ∧
      group.failures = entries.countP fun entry => !entry.success := by
  have name : (GroupReport.nameToKey (groupBy [job] keyFn)).get? job.name = some (keyFn job) := by
    simp [GroupReport.nameToKey, groupBy, buckets, addToBucket, Dict.set, Dict.assign, Dict.empty,
      Dict.get?]
  refine ⟨_, GroupReport.summaryOf (GroupReport.nameToKey (groupBy [job] keyFn)) entries
    (keyFn job) [job], GroupReport.buildGroupReport_eq [job] entries keyFn, ?_, ?_, ?_⟩
  · rw [GroupReport.reportOf, Dict.get?_mapEntries]
    simp [groupBy, buckets, addToBucket]
  · refine List.countP_eq_length.mpr fun entry member => ?_
    rw [own entry member, name, decide_eq_true rfl]
  · refine List.countP_congr fun entry member => ?_
    rw [own entry member, name, decide_eq_true rfl, Bool.and_true]

/-- Entries that say what the results say. -/
theorem entries_made {attributes : HistoryEntry.Attributes} (present : attributes.Present)
    (results : List ExecutionResult) :
    ∃ entries, results.mapM (HistoryEntry.fromResultWith attributes) = .ok entries ∧
      entries.map (fun e => (e.jobName, e.success, e.exitCode)) =
        results.map fun result => (result.jobName, result.success, result.exitCode) := by
  induction results with
  | nil => exact ⟨[], rfl, rfl⟩
  | cons result rest ih =>
      obtain ⟨entry, first, jobName, success, exitCode, -⟩ := present.made result
      obtain ⟨entries, others, same⟩ := ih
      refine ⟨entry :: entries, by rw [List.mapM_cons, first, others]; rfl, ?_⟩
      rw [List.map_cons, List.map_cons, same, jobName, success, exitCode]

/-- Where one property implies the other, as many items have both as have the weaker one
exactly when all of those have the stronger one. -/
theorem countP_eq_iff {α : Type} {p q : α → Bool} (imp : ∀ a, p a → q a) (l : List α) :
    l.countP p = l.countP q ↔ ∀ a ∈ l, q a → p a := by
  induction l with
  | nil => simp
  | cons a rest ih =>
      have others : rest.countP p ≤ rest.countP q :=
        List.countP_mono_left fun a _ holds => imp a holds
      rw [List.forall_mem_cons, List.countP_cons, List.countP_cons]
      cases strong : p a with
      | true => simp [imp a strong, ih]
      | false =>
          cases weak : q a with
          | true =>
              simp only [Bool.false_eq_true, if_false, if_true, imp_false, not_true_eq_false,
                false_and, iff_false]
              omega
          | false => simp [ih]

/-- Only a run that failed has an exit code other than zero. -/
theorem exitCodes_iff (results : List ExecutionResult) :
    (results.countP fun result => result.exitCode ≠ 0) =
        results.countP (fun result => !result.success) ↔
      ∀ result ∈ results, result.exitCode = 0 → result.success := by
  have fails : ∀ result : ExecutionResult, decide (result.exitCode ≠ 0) = true →
      (!result.success) = true := by
    intro result nonzero
    have nonzero_ : ¬ result.exitCode = 0 := by simpa using nonzero
    simp [ExecutionResult.success, nonzero_]
  rw [countP_eq_iff fails]
  refine forall₂_congr fun result _ => ?_
  cases result.success <;> simp

theorem reads_of_map {entries : List HistoryEntry} {results : List ExecutionResult}
    (same : entries.map (fun e => (e.jobName, e.success, e.exitCode)) =
      results.map fun result => (result.jobName, result.success, result.exitCode))
    (p : String × Bool × Int → Bool) :
    (entries.countP fun e => p (e.jobName, e.success, e.exitCode)) =
      results.countP fun result => p (result.jobName, result.success, result.exitCode) := by
  have counted := congrArg (List.countP p) same
  rwa [List.countP_map, List.countP_map] at counted

/-- **With attributes that exist** the counts agree where a run with exit code zero is a
success. -/
theorem countsAgreeWith_iff {attributes : Attributes} (present : attributes.result.Present)
    (durations : ∀ entry, ∃ duration, attributes.durationSeconds entry = .ok duration)
    (job : JobConfig) (keyFn : JobConfig → String) {results : List ExecutionResult}
    (own : ∀ result ∈ results, result.jobName = job.name) :
    CountsAgreeWith attributes job keyFn results ↔
      ∀ result ∈ results, result.exitCode = 0 → result.success := by
  obtain ⟨entries, made, same⟩ := entries_made present results
  obtain ⟨summary, summarised, runs, failed⟩ := summariseWith_counts durations job.name entries
  have ownEntries : ∀ entry ∈ entries, entry.jobName = job.name := by
    intro entry member
    have among : (entry.jobName, entry.success, entry.exitCode) ∈
        results.map fun result => (result.jobName, result.success, result.exitCode) := by
      rw [← same]
      exact List.mem_map_of_mem member
    obtain ⟨result, member', eq⟩ := List.mem_map.mp among
    rw [← (Prod.mk.inj eq).1]
    exact own result member'
  obtain ⟨report, group, built, held, total, failures⟩ := groupReport_single job keyFn ownEntries
  obtain ⟨metricRuns, metricFailures⟩ := MetricsCollector.get_fed results job.name
  have length : entries.length = results.length := by simpa using congrArg List.length same
  have runsOfJob : results.countP (fun result => result.jobName = job.name) = results.length :=
    List.countP_eq_length.mpr (by simpa using own)
  have failuresOfJob : (results.countP fun result => !result.success && result.jobName = job.name) =
      results.countP fun result => !result.success :=
    List.countP_congr fun result member => by simp [own result member]
  have exits := reads_of_map same fun e => e.2.2 ≠ 0
  have successes := reads_of_map same fun e => !e.2.1
  rw [← exitCodes_iff, ← exits, ← successes, ← failed, ← failures]
  constructor
  · rintro ⟨entries', summary', report', group', made', summarised', built', held', agree, -⟩
    rw [made] at made'
    cases made'
    rw [summarised] at summarised'
    cases summarised'
    rw [built] at built'
    cases built'
    rw [held] at held'
    cases held'
    exact agree
  · intro agree
    refine ⟨entries, summary, report, group, made, summarised, built, held, agree, ?_, ?_, ?_⟩
    · rw [failures, successes, metricFailures, failuresOfJob]
    · rw [runs, total]
    · rw [total, length, metricRuns, runsOfJob]

/-- **As the code is written** the counts are made, and agree, of no results only. -/
theorem countsAgree_iff (job : JobConfig) (keyFn : JobConfig → String)
    (results : List ExecutionResult) :
    CountsAgreeWith asWritten job keyFn results ↔ results = [] := by
  constructor
  · rintro ⟨entries, -, -, -, made, -⟩
    cases results with
    | nil => rfl
    | cons result rest =>
        rw [List.mapM_cons] at made
        cases made
  · rintro rfl
    obtain ⟨report, group, built, held, total, failures⟩ :=
      groupReport_single job keyFn (List.forall_mem_nil _)
    exact ⟨[], _, report, group, rfl, rfl, built, held, failures.symm, failures, total.symm, total⟩

/-- Attributes that exist, under the names that the code uses. -/
def repaired : Attributes where
  result := { duration := fun result => .ok result.durationSeconds, isoformat := fun _ => .ok "" }
  durationSeconds := fun entry => .ok (some entry.duration)

/-- A run that was killed at its time limit after it had ended with exit code zero. -/
def killedLate : ExecutionResult where
  jobName := "backup"
  exitCode := 0
  stdout := ""
  stderr := ""
  durationSeconds := 60
  startedAt := 0
  finishedAt := 60
  timedOut := true

def backupJob : JobConfig where
  name := "backup"
  command := "backup.sh"
  schedule := "0 3 * * *"

theorem killedLate_uncounted :
    ¬ CountsAgreeWith asWritten backupJob JobConfig.schedule [killedLate] ∧
      ¬ CountsAgreeWith repaired backupJob JobConfig.schedule [killedLate] := by
  constructor
  · rintro ⟨entries, -, -, -, made, -⟩
    cases made
  · have present : repaired.result.Present := ⟨fun _ => rfl, fun _ => ⟨"", rfl⟩⟩
    have own : ∀ result ∈ [killedLate], result.jobName = backupJob.name := by decide
    rw [countsAgreeWith_iff present (fun entry => ⟨some entry.duration, rfl⟩) backupJob
      JobConfig.schedule own]
    decide

end Reporter

end Cronwatch.Jobs
