/-
# Jobs.Timeout -- time limits by job and the executor that keeps them

`TimedExecutor.run` calls `run_job` with an alarm set.  The handler of the alarm raises
`JobTimeoutError` wherever `run_job` happens to be; when nothing in `run_job` takes that
error, the executor makes a failed result in its place, with keywords that
`ExecutionResult` does not have.  So a run that is cut short always raises
(`run_alarm`), and every other run ends as `run_job` does (`run_cases`).
-/
import Cronwatch.Jobs.Config
import Cronwatch.Jobs.Executor

namespace Cronwatch.Jobs

set_option autoImplicit false

open Cronwatch.Theory Cronwatch.Runtime

structure TimeoutPolicy where
  defaultSeconds : Int := 3600
  perJob : Option (Dict String Int) := none

/-- The effective limit of a job, in seconds. -/
def TimeoutPolicy.timeoutFor (jobName : String) (policy : TimeoutPolicy) : Int :=
  match policy.perJob with
  | none => policy.defaultSeconds
  | some perJob => (perJob.get? jobName).getD policy.defaultSeconds

structure JobTimeoutError where
  jobName : String
  timeoutSeconds : Int
deriving DecidableEq

/-- `str(exc)`. -/
def JobTimeoutError.message (e : JobTimeoutError) : String :=
  s!"Job '{e.jobName}' timed out after {e.timeoutSeconds}s"

/-- How a block under an alarm is left: by what comes of it, or by the error that the
handler of the alarm raises in it. -/
inductive Ending (α : Type) where
  | own (outcome : Except PyException α)
  | alarm

/-- A block, as it goes with no alarm set and with one set to some seconds. -/
structure Block (α : Type) where
  undisturbed : Except PyException α
  alarmed : Int → Ending α

/-- `with enforce_timeout(job_name, seconds)`.  A limit of zero or below sets no alarm. -/
def enforceTimeout {α : Type} (jobName : String) (seconds : Int) (block : Block α) :
    Except JobTimeoutError (Except PyException α) :=
  if seconds ≤ 0 then .ok block.undisturbed
  else
    match block.alarmed seconds with
    | .own outcome => .ok outcome
    | .alarm => .error ⟨jobName, seconds⟩

theorem enforceTimeout_raises_iff {α : Type} (jobName : String) (seconds : Int)
    (block : Block α) (e : JobTimeoutError) :
    enforceTimeout jobName seconds block = .error e ↔
      0 < seconds ∧ block.alarmed seconds = .alarm ∧ e = ⟨jobName, seconds⟩ := by
  unfold enforceTimeout
  split
  · rename_i unlimited
    exact iff_of_false (fun impossible => by cases impossible) fun all => by omega
  · rename_i limited
    cases left : block.alarmed seconds with
    | own outcome => exact iff_of_false (fun impossible => by cases impossible) (by simp)
    | alarm =>
        have positive : 0 < seconds := by omega
        simp [positive, eq_comm]

namespace TimedExecutor

/-- The failed result of a run that is cut short. -/
def timedOut (job : JobConfig) (timeout : Int) (e : JobTimeoutError) :
    Except PyException ExecutionResult :=
  ExecutionResult.init [.jobName job.name, .success false, .exitCode (-1), .stdout "",
    .stderr e.message, .duration timeout]

/-- `runJob job` is the call of `run_job`, under the alarm. -/
def run (runJob : JobConfig → Block ExecutionResult) (job : JobConfig) (policy : TimeoutPolicy) :
    Except PyException ExecutionResult :=
  let timeout := policy.timeoutFor job.name
  match enforceTimeout job.name timeout (runJob job) with
  | .ok outcome => outcome
  | .error e => timedOut job timeout e

variable {runJob : JobConfig → Block ExecutionResult} {job : JobConfig} {policy : TimeoutPolicy}

/-- **A run that is cut short raises**: there is no keyword `success`. -/
theorem run_alarm {e : JobTimeoutError}
    (raised : enforceTimeout job.name (policy.timeoutFor job.name) (runJob job) = .error e) :
    run runJob job policy = .error
      (.typeError "ExecutionResult.__init__() got an unexpected keyword argument 'success'") := by
  rw [run, raised]
  exact ExecutionResult.init_of_success _ _ _

/-- **How a run ends**: cut short by the alarm, or as `run_job` does. -/
theorem run_cases (runJob : JobConfig → Block ExecutionResult) (job : JobConfig)
    (policy : TimeoutPolicy) :
    (0 < policy.timeoutFor job.name ∧
        (runJob job).alarmed (policy.timeoutFor job.name) = .alarm ∧
        ∃ message, run runJob job policy = .error (.typeError message)) ∨
      (policy.timeoutFor job.name ≤ 0 ∧ run runJob job policy = (runJob job).undisturbed) ∨
      0 < policy.timeoutFor job.name ∧
        (runJob job).alarmed (policy.timeoutFor job.name) = .own (run runJob job policy) := by
  rcases Int.lt_or_le 0 (policy.timeoutFor job.name) with limited | unlimited
  · cases left : (runJob job).alarmed (policy.timeoutFor job.name) with
    | own outcome =>
        have kept : enforceTimeout job.name (policy.timeoutFor job.name) (runJob job) =
            .ok outcome := by
          rw [enforceTimeout, if_neg (not_le.mpr limited), left]
        exact .inr (.inr ⟨limited, by rw [run, kept]⟩)
    | alarm =>
        have raised := (enforceTimeout_raises_iff job.name _ (runJob job) _).mpr
          ⟨limited, left, rfl⟩
        exact .inl ⟨limited, rfl, _, run_alarm raised⟩
  · refine .inr (.inl ⟨unlimited, ?_⟩)
    rw [run, enforceTimeout, if_pos unlimited]

end TimedExecutor

end Cronwatch.Jobs
