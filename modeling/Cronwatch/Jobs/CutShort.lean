/-
# Jobs.CutShort -- runs that a wrapper declines or cuts short

Three wrappers of an executor make a failed result themselves: `ConcurrentExecutor` for
a job without a free slot, `TimedExecutor` for one that the alarm interrupts, and
`JobRunner` for one whose result took longer than its limit.  None of them makes it with
the fields of an `ExecutionResult`, so every one of these calls raises
(`not_wellFormed`) and nothing behind the wrapper sees a result.
-/
import Cronwatch.Jobs.Concurrency
import Cronwatch.Jobs.Runner

namespace Cronwatch.Jobs

set_option autoImplicit false

open Cronwatch.Theory Cronwatch.Runtime

/-- A call that declines a run of the job or cuts it short, given by how it ends. -/
inductive CutShort (job : JobConfig) : Except PyException ExecutionResult → Prop where
  /-- The guard has no free slot for the job. -/
  | declined {policy : ConcurrencyPolicy} (inner : JobConfig → Except PyException ExecutionResult)
      (guard : ConcurrencyGuard policy) (full : guard.freeSlots job.name = 0) :
      CutShort job (ConcurrentExecutor.run inner job guard).1
  /-- The alarm goes off in the run. -/
  | interrupted (runJob : JobConfig → Block ExecutionResult) (policy : TimeoutPolicy)
      {e : JobTimeoutError}
      (raised : enforceTimeout job.name (policy.timeoutFor job.name) (runJob job) = .error e) :
      CutShort job (TimedExecutor.run runJob job policy)
  /-- The run took longer than a limit that is set. -/
  | late (runJob : JobConfig → Except PyException ExecutionResult) (runner : JobRunner)
      {timeout : Int} {raw : ExecutionResult} (returned : runner.execution runJob job = .ok raw)
      (limited : 0 < timeout) (over_limit : timeout < raw.durationSeconds) :
      CutShort job (runner.execute runJob job timeout)

/-- A failed result of the job. -/
def WellFormed (job : JobConfig) (outcome : Except PyException ExecutionResult) : Prop :=
  ∃ result, outcome = .ok result ∧ result.jobName = job.name ∧ result.success = false

theorem ConcurrentExecutor.run_of_full {policy : ConcurrencyPolicy} {job : JobConfig}
    {guard : ConcurrencyGuard policy} (full : guard.freeSlots job.name = 0)
    (inner : JobConfig → Except PyException ExecutionResult) :
    (run inner job guard).1 = .error
      (.typeError "ExecutionResult.__init__() got an unexpected keyword argument 'success'") := by
  rcases guard.tryAcquire_spec job with ⟨-, refused, -⟩ | ⟨free, some, -, -⟩
  · rcases tried : guard.tryAcquire job with ⟨answer, guard'⟩
    rw [tried] at refused
    cases refused
    rw [run, tried]
    exact declined_raises job
  · rw [full] at some
    cases some

/-- With a limit, every result makes `_execute` raise, the late ones among them. -/
theorem JobRunner.execute_of_limited {runJob : JobConfig → Except PyException ExecutionResult}
    {job : JobConfig} {runner : JobRunner} {raw : ExecutionResult} {timeout : Int}
    (returned : runner.execution runJob job = .ok raw) (limited : 0 < timeout) :
    runner.execute runJob job timeout =
      .error (.attributeError "'ExecutionResult' object has no attribute 'duration'") := by
  rw [execute, executeWith, returned]
  dsimp only
  rw [judge, if_pos limited]
  rfl

/-- **No run that is cut short gives a result**, whatever the job, the guard, the limits
and the executor inside. -/
theorem not_wellFormed {job : JobConfig} {outcome : Except PyException ExecutionResult}
    (short : CutShort job outcome) : ¬ WellFormed job outcome := by
  rintro ⟨result, made, -⟩
  cases short with
  | declined inner guard full =>
      rw [ConcurrentExecutor.run_of_full full inner] at made
      cases made
  | interrupted runJob policy raised =>
      rw [TimedExecutor.run_alarm raised] at made
      cases made
  | late runJob runner returned limited over_limit =>
      rw [JobRunner.execute_of_limited returned limited] at made
      cases made

/-- A guard whose one slot for the job is taken. -/
def takenSlot : ConcurrencyGuard {} where
  semaphores := Dict.empty.set "obedient" 0

/-- A run that the alarm interrupts after any number of seconds. -/
def endless : JobConfig → Block ExecutionResult := fun _ =>
  { undisturbed := .error (.foreign "never returns"), alarmed := fun _ => .alarm }

/-- A run of an hour and a half. -/
def slow : ExecutionResult where
  jobName := "obedient"
  exitCode := 0
  stdout := "done"
  stderr := ""
  durationSeconds := 5400
  startedAt := 0
  finishedAt := 5400

theorem taken_slot_not_wellFormed :
    ¬ WellFormed Executor.obedient
      (ConcurrentExecutor.run (fun _ => .ok slow) Executor.obedient takenSlot).1 :=
  not_wellFormed (.declined _ takenSlot (by decide +kernel))

/-- The three wrappers, each on a run that it cuts short. -/
theorem cut_short_raises :
    (ConcurrentExecutor.run (fun _ => .ok slow) Executor.obedient takenSlot).1 = .error
        (.typeError "ExecutionResult.__init__() got an unexpected keyword argument 'success'") ∧
      TimedExecutor.run endless Executor.obedient {} = .error
        (.typeError "ExecutionResult.__init__() got an unexpected keyword argument 'success'") ∧
      JobRunner.execute (fun _ => .ok slow) Executor.obedient 3600 {} =
        .error (.attributeError "'ExecutionResult' object has no attribute 'duration'") ∧
      ¬ ∀ job outcome, CutShort job outcome → WellFormed job outcome := by
  refine ⟨by decide +kernel, by decide +kernel, rfl, fun all => ?_⟩
  obtain ⟨result, made, -⟩ := all Executor.obedient _ (.late (fun _ => .ok slow) {} rfl
    (show (0 : Int) < 3600 by decide) (by decide +kernel))
  cases made

end Cronwatch.Jobs
