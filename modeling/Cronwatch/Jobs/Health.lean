/-
# Jobs.Health -- which jobs the status registry calls unhealthy

A status is healthy when its state is idle or succeeded, so a job that is running is
unhealthy whatever came of its last run.  After any calls `unhealthy_jobs` has the jobs
that are running or whose last finished run failed (`mem_unhealthyJobs_iff`), and these are
the ones whose last finished run failed exactly when every job that is running is one of
them (`unhealthyJobs_iff`).
-/
import Cronwatch.Jobs.Status
import Cronwatch.Theory.Flag

namespace Cronwatch.Jobs

set_option autoImplicit false

open Cronwatch.Theory Cronwatch.Runtime

namespace JobStatusRegistry

inductive Call where
  | get (jobName : String)
  | markRunning (now : DateTime) (jobName : String)
  | markFinished (now : DateTime) (jobName : String) (result : ExecutionResult)
  | reset (jobName : String)

def step (registry : JobStatusRegistry) : Call → JobStatusRegistry
  | .get jobName => (registry.get jobName).2
  | .markRunning now jobName => registry.markRunning now jobName
  | .markFinished now jobName result => registry.markFinished now jobName result
  | .reset jobName => registry.reset jobName

def run (calls : List Call) : JobStatusRegistry := calls.foldl step {}

def Call.jobName : Call → String
  | .get jobName | .markRunning _ jobName | .markFinished _ jobName _ | .reset jobName => jobName

/-- A run of the job starts. -/
def Call.starts (job : String) : Call → Bool
  | .markRunning _ jobName => jobName = job
  | _ => false

/-- A run of the job is over or forgotten. -/
def Call.settles (job : String) : Call → Bool
  | .markFinished _ jobName _ | .reset jobName => jobName = job
  | _ => false

/-- A run of the job ends without success. -/
def Call.fails (job : String) : Call → Bool
  | .markFinished _ jobName result => jobName = job ∧ result.success = false
  | _ => false

/-- The job is in the middle of a run. -/
def Running (calls : List Call) (job : String) : Prop :=
  ∃ before call after, calls = before ++ call :: after ∧ call.starts job = true ∧
    ∀ later ∈ after, later.settles job = false

/-- The last run of the job that was finished, since it was reset last, was unsuccessful. -/
def LastRunFailed (calls : List Call) (job : String) : Prop :=
  ∃ before call after, calls = before ++ call :: after ∧ call.fails job = true ∧
    ∀ later ∈ after, later.settles job = false

theorem running_iff (calls : List Call) (job : String) :
    Running calls job ↔ flag (Call.starts job) (Call.settles job) calls = true :=
  (flag_iff calls).symm

theorem lastRunFailed_iff (calls : List Call) (job : String) :
    LastRunFailed calls job ↔ flag (Call.fails job) (Call.settles job) calls = true :=
  (flag_iff calls).symm

theorem run_append_single (calls : List Call) (call : Call) :
    run (calls ++ [call]) = (run calls).step call := by
  rw [run, List.foldl_append]
  rfl

theorem isHealthy_markFinished (now : DateTime) (result : ExecutionResult) (status : JobStatus) :
    (status.markFinished now result).isHealthy = result.success := by
  cases succeeded : result.success <;> simp [JobStatus.markFinished, JobStatus.isHealthy, succeeded]

/-- A call leaves the status of every other job. -/
theorem getStatus_step_of_ne {registry : JobStatusRegistry} {call : Call} {job : String}
    (other : job ≠ call.jobName) : (registry.step call).getStatus job = registry.getStatus job := by
  cases call with
  | get jobName =>
      rw [step, get, getStatus_put]
      exact if_neg other
  | markRunning now jobName =>
      rw [step, markRunning, getStatus_put]
      exact if_neg other
  | markFinished now jobName result =>
      rw [step, markFinished, getStatus_put]
      exact if_neg other
  | reset jobName =>
      rw [step, getStatus_reset]
      exact if_neg other

/-- A call is of no account for every other job. -/
theorem Call.idle_of_ne {call : Call} {job : String} (other : job ≠ call.jobName) :
    call.starts job = false ∧ call.settles job = false ∧ call.fails job = false := by
  have swapped : ¬ call.jobName = job := fun same => other same.symm
  cases call <;> simp_all [Call.starts, Call.settles, Call.fails, Call.jobName]

/-- **One call** changes the health of a job as it raises and lowers the two flags. -/
theorem isHealthy_step (registry : JobStatusRegistry) (call : Call) (job : String)
    {running failed : Bool}
    (before : (registry.getStatus job).isHealthy = !(running || failed)) :
    ((registry.step call).getStatus job).isHealthy =
      !(flagAfter (Call.starts job) (Call.settles job) running call ||
        flagAfter (Call.fails job) (Call.settles job) failed call) := by
  by_cases same : job = call.jobName
  · subst same
    cases call with
    | get jobName =>
        rw [Call.jobName] at before ⊢
        rw [step, get, getStatus_put, if_pos rfl]
        simpa [flagAfter, Call.starts, Call.settles, Call.fails] using before
    | markRunning now jobName =>
        rw [step, markRunning, getStatus_put, Call.jobName, if_pos rfl]
        simp [flagAfter, Call.starts, JobStatus.markRunning, JobStatus.isHealthy]
    | markFinished now jobName result =>
        rw [step, markFinished, getStatus_put, Call.jobName, if_pos rfl, isHealthy_markFinished]
        cases succeeded : result.success <;>
          simp [flagAfter, Call.starts, Call.settles, Call.fails, succeeded]
    | reset jobName =>
        rw [step, getStatus_reset, Call.jobName, if_pos rfl]
        simp [flagAfter, Call.starts, Call.settles, Call.fails, JobStatus.isHealthy]
  · obtain ⟨starts, settles, fails⟩ := Call.idle_of_ne same
    rw [getStatus_step_of_ne same, flagAfter_of_neither starts settles,
      flagAfter_of_neither fails settles]
    exact before

theorem isHealthy_run (calls : List Call) (job : String) :
    ((run calls).getStatus job).isHealthy =
      !(flag (Call.starts job) (Call.settles job) calls ||
        flag (Call.fails job) (Call.settles job) calls) := by
  induction calls using List.reverseRecOn with
  | nil => rfl
  | append_singleton calls call ih =>
      rw [run_append_single, flag_append_single, flag_append_single]
      exact isHealthy_step _ call job ih

/-- A job that the registry does not know is healthy. -/
theorem mem_unhealthyJobs (registry : JobStatusRegistry) (job : String) :
    job ∈ registry.unhealthyJobs.keys ↔ (registry.getStatus job).isHealthy = false := by
  rw [Dict.mem_keys_iff, unhealthyJobs, Dict.get?_filter, getStatus]
  cases held : registry.statuses.get? job with
  | none => simp [JobStatus.isHealthy]
  | some status => simp [Option.filter]

/-- **Who is called unhealthy** after any calls. -/
theorem mem_unhealthyJobs_iff (calls : List Call) (job : String) :
    job ∈ (run calls).unhealthyJobs.keys ↔ Running calls job ∨ LastRunFailed calls job := by
  rw [mem_unhealthyJobs, isHealthy_run, running_iff, lastRunFailed_iff, Bool.not_eq_false',
    Bool.or_eq_true]

/-- **Unhealthy means failed** exactly while every job that is running has failed last. -/
theorem unhealthyJobs_iff (calls : List Call) :
    (∀ job, job ∈ (run calls).unhealthyJobs.keys ↔ LastRunFailed calls job) ↔
      ∀ job, Running calls job → LastRunFailed calls job := by
  simp only [mem_unhealthyJobs_iff, or_iff_right_iff_imp]

/-- A job whose first run has just started. -/
theorem unhealthyJobs_first_run :
    let calls := [Call.markRunning 0 "backup"]
    "backup" ∈ (run calls).unhealthyJobs.keys ∧ ¬ LastRunFailed calls "backup" := by
  intro calls
  refine ⟨by decide, fun failed => ?_⟩
  rw [lastRunFailed_iff] at failed
  cases failed

end JobStatusRegistry

end Cronwatch.Jobs
