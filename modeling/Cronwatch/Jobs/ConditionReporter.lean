/-
# Jobs.ConditionReporter -- why jobs were skipped

A `ConditionReporter` keeps, for every job that was skipped, the reasons in the order in
which they were recorded (`summaryFor_run`).  `most_common_reason` looks for the reason
with the highest count in a set of them: of several it takes the one that the iteration of
the set comes to first, which need not be the one recorded first
(`mostCommonReason_first_iff`).
-/
import Mathlib.Algebra.GroupWithZero.Nat
import Cronwatch.Theory.Buckets
import Cronwatch.Theory.SetOrder

namespace Cronwatch.Jobs

set_option autoImplicit false

open Cronwatch.Theory

/-- What a conditional execution came to, without the result of the command itself. -/
structure ConditionalResult where
  jobName : String
  skipped : Bool
  skipReason : Option String
deriving DecidableEq

structure ConditionSkipSummary where
  jobName : String
  skipCount : Nat := 0
  reasons : List String := []
deriving DecidableEq

namespace ConditionSkipSummary

def record (reason : String) (summary : ConditionSkipSummary) : ConditionSkipSummary :=
  { summary with
    skipCount := summary.skipCount + 1
    reasons := summary.reasons ++ [reason] }

/-- `max(set(self.reasons), key=self.reasons.count)`. -/
def mostCommonReason (order : SetOrder String) (summary : ConditionSkipSummary) : Option String :=
  if summary.reasons = [] then none
  else (order.visit summary.reasons).elements.argmax fun reason => summary.reasons.count reason

end ConditionSkipSummary

structure ConditionReporter where
  summaries : Dict String ConditionSkipSummary := .empty

namespace ConditionReporter

/-- `result.skip_reason or "unknown"`. -/
def reasonOf (result : ConditionalResult) : String :=
  match result.skipReason with
  | none => "unknown"
  | some reason => if reason = "" then "unknown" else reason

/-- The summary of a job, empty if it was never skipped. -/
def summaryFor (jobName : String) (reporter : ConditionReporter) : ConditionSkipSummary :=
  (reporter.summaries.get? jobName).getD { jobName }

def record (result : ConditionalResult) (reporter : ConditionReporter) : ConditionReporter :=
  if result.skipped then
    { summaries := reporter.summaries.set result.jobName
        ((reporter.summaryFor result.jobName).record (reasonOf result)) }
  else reporter

def allSummaries (reporter : ConditionReporter) : List ConditionSkipSummary :=
  reporter.summaries.entries.map Prod.snd

def totalSkips (reporter : ConditionReporter) : Nat :=
  (reporter.allSummaries.map ConditionSkipSummary.skipCount).sum

def jobsSkipped (reporter : ConditionReporter) : List String := reporter.summaries.keys

/-- A reporter that has recorded these results. -/
def run (results : List ConditionalResult) : ConditionReporter :=
  results.foldl (fun reporter result => reporter.record result) {}

/-! ## What has been recorded -/

/-- The reasons for which the job was skipped, in order. -/
def reasonsFor (results : List ConditionalResult) (jobName : String) : List String :=
  (results.filter fun result => result.skipped && result.jobName = jobName).map reasonOf

theorem run_append_single (before : List ConditionalResult) (result : ConditionalResult) :
    run (before ++ [result]) = (run before).record result := by
  rw [run, List.foldl_append]
  rfl

theorem summaryFor_record (result : ConditionalResult) (reporter : ConditionReporter)
    (jobName : String) : (reporter.record result).summaryFor jobName =
      if result.skipped ∧ result.jobName = jobName
        then (reporter.summaryFor jobName).record (reasonOf result)
        else reporter.summaryFor jobName := by
  rw [record]
  split
  · rename_i skipped
    rw [summaryFor, Dict.get?_set]
    by_cases same : jobName = result.jobName
    · subst same
      simp [skipped]
    · have other : ¬ result.jobName = jobName := fun eq => same eq.symm
      simp [same, other, summaryFor]
  · rename_i ran
    simp [ran]

theorem reasonsFor_append_single (before : List ConditionalResult) (result : ConditionalResult)
    (jobName : String) : reasonsFor (before ++ [result]) jobName =
      reasonsFor before jobName ++
        if result.skipped ∧ result.jobName = jobName then [reasonOf result] else [] := by
  rw [reasonsFor, List.filter_append, List.map_append, ← reasonsFor]
  by_cases counts : result.skipped ∧ result.jobName = jobName
  · simp [counts.1, counts.2]
  · rw [if_neg counts, List.filter_cons_of_neg (by simpa using counts)]
    rfl

/-- **The summary of a job** counts and lists what was recorded for it. -/
theorem summaryFor_run (results : List ConditionalResult) (jobName : String) :
    (run results).summaryFor jobName =
      { jobName
        skipCount := (reasonsFor results jobName).length
        reasons := reasonsFor results jobName } := by
  induction results using List.reverseRecOn with
  | nil => rfl
  | append_singleton before result ih =>
      rw [run_append_single, summaryFor_record, reasonsFor_append_single, ih]
      split
      · rw [ConditionSkipSummary.record, List.length_append]
        rfl
      · rw [List.append_nil]

theorem totalSkips_record (result : ConditionalResult) (reporter : ConditionReporter) :
    (reporter.record result).totalSkips =
      reporter.totalSkips + if result.skipped then 1 else 0 := by
  rw [record]
  split
  · have held : ((reporter.summaries.get? result.jobName).map ConditionSkipSummary.skipCount).getD 0 =
        (reporter.summaryFor result.jobName).skipCount := by
      rw [summaryFor]
      cases reporter.summaries.get? result.jobName <;> rfl
    have one : ((reporter.summaryFor result.jobName).record (reasonOf result)).skipCount =
        (reporter.summaryFor result.jobName).skipCount + 1 := rfl
    have replaced := reporter.summaries.sum_set ConditionSkipSummary.skipCount result.jobName
      ((reporter.summaryFor result.jobName).record (reasonOf result))
    rw [held, one] at replaced
    simp only [totalSkips, allSummaries, List.map_map, Function.comp_def]
    omega
  · rfl

/-- All skips are those of the results. -/
theorem totalSkips_run (results : List ConditionalResult) :
    (run results).totalSkips = results.countP ConditionalResult.skipped := by
  induction results using List.reverseRecOn with
  | nil => rfl
  | append_singleton before result ih =>
      rw [run_append_single, totalSkips_record, ih, List.countP_append, List.countP_singleton]

/-! ## The most common reason -/

/-- A reason of the highest frequency, and of those the one that was recorded first. -/
structure FirstMostCommon (reasons : List String) (reason : String) : Prop where
  recorded : reason ∈ reasons
  common : ∀ other ∈ reasons, reasons.count other ≤ reasons.count reason
  first : ∀ other ∈ reasons, reasons.count other = reasons.count reason →
    reasons.idxOf reason ≤ reasons.idxOf other

theorem firstMostCommon_iff (reasons : List String) (reason : String) :
    FirstMostCommon reasons reason ↔
      reasons.argmax (fun other => reasons.count other) = some reason := by
  rw [List.argmax_eq_some_iff]
  constructor
  · intro is
    exact ⟨is.recorded, is.common, fun other member least =>
      is.first other member (le_antisymm (is.common other member) least)⟩
  · intro ⟨recorded, common, first⟩
    exact ⟨recorded, common, fun other member same => first other member same.ge⟩

/-- Of the reasons of the highest frequency the iteration comes first to the one that was
recorded first. -/
def VisitedInOrder (order : SetOrder String) (reasons : List String) : Prop :=
  ∀ reason, FirstMostCommon reasons reason → ∀ other ∈ reasons,
    reasons.count other = reasons.count reason →
      (order.visit reasons).elements.idxOf reason ≤ (order.visit reasons).elements.idxOf other

/-- Two reasons of the highest frequency are the same. -/
def NoTie (reasons : List String) : Prop :=
  ∀ a ∈ reasons, ∀ b ∈ reasons, (∀ c ∈ reasons, reasons.count c ≤ reasons.count a) →
    (∀ c ∈ reasons, reasons.count c ≤ reasons.count b) → a = b

/-- The answer is right when it is what `max` would take from the reasons in order. -/
theorem mostCommonReason_iff {results : List ConditionalResult} {jobName : String}
    (skipped : reasonsFor results jobName ≠ []) (order : SetOrder String) :
    (∃ reason, ((run results).summaryFor jobName).mostCommonReason order = some reason ∧
      FirstMostCommon (reasonsFor results jobName) reason) ↔
    (order.visit (reasonsFor results jobName)).elements.argmax
        (fun reason => (reasonsFor results jobName).count reason) =
      (reasonsFor results jobName).argmax
        (fun reason => (reasonsFor results jobName).count reason) := by
  rw [summaryFor_run, ConditionSkipSummary.mostCommonReason]
  dsimp only
  rw [if_neg skipped]
  simp only [firstMostCommon_iff]
  constructor
  · rintro ⟨reason, taken, first⟩
    rw [taken, first]
  · intro same
    cases first : (reasonsFor results jobName).argmax
        (fun reason => (reasonsFor results jobName).count reason) with
    | none => exact absurd (List.argmax_eq_none.mp first) skipped
    | some reason => exact ⟨reason, same.trans first, rfl⟩

/-- **The most common reason** of a job that was skipped is the first of the most common
ones, in one order of iteration exactly when that visits them in order, and in every order
exactly when there is one only. -/
theorem mostCommonReason_first_iff (results : List ConditionalResult) (jobName : String)
    (skipped : ∃ result ∈ results, result.skipped = true ∧ result.jobName = jobName) :
    (∀ order, (∃ reason, ((run results).summaryFor jobName).mostCommonReason order = some reason ∧
        FirstMostCommon (reasonsFor results jobName) reason) ↔
          VisitedInOrder order (reasonsFor results jobName)) ∧
      ((∀ order, ∃ reason, ((run results).summaryFor jobName).mostCommonReason order = some reason ∧
        FirstMostCommon (reasonsFor results jobName) reason) ↔
          NoTie (reasonsFor results jobName)) := by
  have some_ : reasonsFor results jobName ≠ [] := by
    obtain ⟨result, member, was, same⟩ := skipped
    refine List.ne_nil_of_mem (a := reasonOf result) (List.mem_map_of_mem ?_)
    exact List.mem_filter.mpr ⟨member, by simp [was, same]⟩
  simp only [mostCommonReason_iff some_]
  refine ⟨fun order => ?_, SetOrder.forall_argmax_visit_iff _ _⟩
  cases first : (reasonsFor results jobName).argmax
      (fun reason => (reasonsFor results jobName).count reason) with
  | none => exact absurd (List.argmax_eq_none.mp first) some_
  | some reason =>
      have is := (firstMostCommon_iff _ _).mpr first
      rw [SetOrder.argmax_visit_iff order _ first]
      constructor
      · intro before reason' is' other member same
        have eq : reason' = reason :=
          Option.some_inj.mp (((firstMostCommon_iff _ _).mp is').symm.trans first)
        subst eq
        exact before other member same.ge
      · intro visited other member least
        exact visited reason is other member (le_antisymm (is.common other member) least)

def skippedFor (jobName reason : String) : ConditionalResult where
  jobName := jobName
  skipped := true
  skipReason := some reason

/-- Skips of two jobs.  One reason of `backup` is the most frequent; `report` has two of the
highest frequency, neither of which is its first reason. -/
def twoJobs : List ConditionalResult :=
  [skippedFor "backup" "network down", skippedFor "report" "locked",
    skippedFor "backup" "disk full", skippedFor "report" "network down",
    { jobName := "backup", skipped := false, skipReason := none },
    skippedFor "report" "disk full", skippedFor "backup" "disk full",
    skippedFor "report" "disk full", skippedFor "report" "network down",
    skippedFor "backup" "network down", skippedFor "backup" "disk full"]

/-- The most frequent reason of `backup` is found in every order; the tie of `report` is
resolved in one that comes to the first recorded of the two first, though not in all. -/
theorem mostCommonReason_first_twoJobs :
    (∀ order, ((run twoJobs).summaryFor "backup").mostCommonReason order = some "disk full") ∧
      (∃ reason, ((run twoJobs).summaryFor "report").mostCommonReason
          (SetOrder.startingWith "network down") = some reason ∧
        FirstMostCommon (reasonsFor twoJobs "report") reason) ∧
      ¬ ∀ order, ∃ reason, ((run twoJobs).summaryFor "report").mostCommonReason order = some reason ∧
        FirstMostCommon (reasonsFor twoJobs "report") reason := by
  have skipped : ∀ jobName ∈ ["backup", "report"],
      ∃ result ∈ twoJobs, result.skipped = true ∧ result.jobName = jobName := by
    decide
  have first : ∀ jobName reason, FirstMostCommon (reasonsFor twoJobs jobName) reason →
      (reasonsFor twoJobs jobName).argmax (fun other => (reasonsFor twoJobs jobName).count other) =
        some reason := fun _ _ is => (firstMostCommon_iff _ _).mp is
  obtain ⟨-, always⟩ := mostCommonReason_first_iff twoJobs "backup" (skipped _ (by decide))
  obtain ⟨once, tied⟩ := mostCommonReason_first_iff twoJobs "report" (skipped _ (by decide))
  refine ⟨fun order => ?_, (once _).mpr ?_, fun every => ?_⟩
  · obtain ⟨reason, taken, is⟩ := always.mpr (by unfold NoTie; decide) order
    have same : some "disk full" = some reason := Eq.trans (by decide) (first "backup" reason is)
    rw [taken, same]
  · intro reason is other member same
    have named : some "network down" = some reason := Eq.trans (by decide) (first "report" reason is)
    cases named
    revert other
    decide
  · revert every
    rw [tied]
    unfold NoTie
    decide

/-- Two reasons once each, and a set that is iterated in the opposite order. -/
theorem mostCommonReason_tie :
    let results : List ConditionalResult :=
      [{ jobName := "backup", skipped := true, skipReason := some "disk full" },
        { jobName := "backup", skipped := true, skipReason := some "network down" }]
    let order := SetOrder.startingWith "network down"
    ((run results).summaryFor "backup").mostCommonReason order = some "network down" ∧
      ¬ FirstMostCommon (reasonsFor results "backup") "network down" ∧
      FirstMostCommon (reasonsFor results "backup") "disk full" := by
  intro results order
  refine ⟨by decide, fun is => ?_, by decide, by decide, by decide⟩
  exact absurd (is.first "disk full" (by decide) (by decide)) (by decide)

end ConditionReporter

end Cronwatch.Jobs
