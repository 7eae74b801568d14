/-
# Jobs.ConditionalExecutor -- jobs that run only when their conditions have passed

`run` checks the conditions of a job and hands it to the inner executor when all have passed;
otherwise it returns a result that says which one did not.  `serve` is a caller that runs jobs
one after the other and records what is returned in a `ConditionReporter`.

No job is executed unless its conditions have just passed, whatever the commands and the jobs
before did (`guarded`); and where nothing raises, every call is one execution or one skip that
the reporter counts (`conserves`).
-/
import Cronwatch.Jobs.ConditionReporter
import Cronwatch.Jobs.Conditions
import Cronwatch.Jobs.Execution

namespace Cronwatch.Jobs.ConditionalExecutor

set_option autoImplicit false

open Cronwatch.Theory Cronwatch.Runtime

/-- A `ConditionalResult` with what it was made from. -/
structure Result extends ConditionalResult where
  executionResult : Option ExecutionResult
  conditionCheck : Option ConditionCheck
deriving DecidableEq

def Result.succeeded (result : Result) : Bool :=
  if result.skipped then false else result.executionResult.any ExecutionResult.success

/-- The shell, and the executor that is wrapped. -/
structure Env where
  shell : Shell
  inner : List Action → ConditionalJob → Except PyException ExecutionResult
  conditionTimeout : Int := 10

def skipReason (check : ConditionCheck) : String :=
  match check.firstFailure with
  | some failure => s!"condition failed (exit {failure.returncode}): {failure.command}"
  | none => "condition check failed"

def skip (job : ConditionalJob) (check : ConditionCheck) : Result where
  jobName := job.name
  skipped := true
  skipReason := some (skipReason check)
  executionResult := none
  conditionCheck := some check

def executed (job : ConditionalJob) (check : ConditionCheck) (result : ExecutionResult) : Result where
  jobName := job.name
  skipped := false
  skipReason := none
  executionResult := some result
  conditionCheck := some check

variable (env : Env)

def run (job : ConditionalJob) (log : List Action) : Except PyException Result × List Action :=
  match checkConditions env.shell env.conditionTimeout job log with
  | (.error e, log) => (.error e, log)
  | (.ok check, log) =>
      if !check.allPassed then (.ok (skip job check), log)
      else ((env.inner log job).map (executed job check), log ++ [.execute job])

/-- What has been run, and the reporter that was given what was returned. -/
structure Served where
  log : List Action := []
  results : List Result := []
  reporter : ConditionReporter := {}

def call (s : Served) (job : ConditionalJob) : Served :=
  match run env job s.log with
  | (.error _, log) => { s with log }
  | (.ok result, log) =>
      { log
        results := s.results ++ [result]
        reporter := s.reporter.record result.toConditionalResult }

def serve (jobs : List ConditionalJob) : Served := jobs.foldl (call env) {}

theorem serve_append_single (before : List ConditionalJob) (job : ConditionalJob) :
    serve env (before ++ [job]) = call env (serve env before) job := by
  rw [serve, List.foldl_append]
  rfl

/-! ## One call -/

/-- What one call runs and returns. -/
inductive Ran (job : ConditionalJob) (log : List Action) :
    Except PyException Result → List Action → Prop
  | executed (passed : Passed env.shell env.conditionTimeout log (conditionsFor job))
      (check : ConditionCheck) (all : check.allPassed = true) :
      Ran job log
        ((env.inner (log ++ commands env.conditionTimeout (conditionsFor job)) job).map
          (executed job check))
        (log ++ commands env.conditionTimeout (conditionsFor job) ++ [.execute job])
  | skipped (front : List String) (cmd : String) (back : List String)
      (split : conditionsFor job = front ++ cmd :: back)
      (passed : Passed env.shell env.conditionTimeout log front) (bad : ConditionResult)
      (evaluated : evaluateCondition env.shell env.conditionTimeout cmd
        (log ++ commands env.conditionTimeout front) = .ok bad)
      (failed : bad.failed = true) (check : ConditionCheck) (first : check.firstFailure = some bad) :
      Ran job log (.ok (skip job check)) (log ++ commands env.conditionTimeout (front ++ [cmd]))
  | raised (front : List String) (cmd : String) (back : List String)
      (split : conditionsFor job = front ++ cmd :: back)
      (passed : Passed env.shell env.conditionTimeout log front) (e : PyException)
      (evaluated : evaluateCondition env.shell env.conditionTimeout cmd
        (log ++ commands env.conditionTimeout front) = .error e) :
      Ran job log (.error e) (log ++ commands env.conditionTimeout (front ++ [cmd]))

theorem firstFailure_of_good {results : List ConditionResult}
    (good : ∀ result ∈ results, result.passed = true) {bad : ConditionResult}
    (failed : bad.failed = true) (jobName : String) :
    (⟨jobName, results ++ [bad]⟩ : ConditionCheck).firstFailure = some bad := by
  have none_ : results.find? ConditionResult.failed = none := by
    rw [List.find?_eq_none]
    intro result member
    simp [ConditionResult.failed, good result member]
  rw [ConditionCheck.firstFailure, List.find?_append, none_, Option.none_or, List.find?_cons, failed]

theorem run_spec (job : ConditionalJob) (log : List Action) :
    Ran env job log (run env job log).1 (run env job log).2 := by
  have checked : Checked env.shell env.conditionTimeout (conditionsFor job) { jobName := job.name } log
      _ _ := checkLoop_spec _ _ _
  rw [run, checkConditions]
  generalize checkLoop env.shell env.conditionTimeout (conditionsFor job) { jobName := job.name } log =
    answer at checked
  obtain ⟨outcome, log'⟩ := answer
  cases checked with
  | passed all results good =>
      have allPassed : (⟨job.name, results⟩ : ConditionCheck).allPassed = true :=
        List.all_eq_true.mpr good
      have taken := Ran.executed all ⟨job.name, results⟩ allPassed
      simpa [allPassed] using taken
  | failed front cmd back split all results good bad evaluated failed =>
      have notAll : (⟨job.name, results ++ [bad]⟩ : ConditionCheck).allPassed = false := by
        have bad_ : bad.passed = false := by simpa [ConditionResult.failed] using failed
        simp [ConditionCheck.allPassed, bad_]
      have taken := Ran.skipped front cmd back split all bad evaluated failed
        ⟨job.name, results ++ [bad]⟩ (firstFailure_of_good good failed job.name)
      simpa [notAll] using taken
  | raised front cmd back split all e evaluated => exact .raised front cmd back split all e evaluated

/-! ## Every run of calls -/

/-- What may stand in a log: a job only right behind its conditions, all of which passed. -/
def Guarded (before : List Action) : Action → Prop
  | .command _ _ => True
  | .execute job => ∃ front, before = front ++ commands env.conditionTimeout (conditionsFor job) ∧
      Passed env.shell env.conditionTimeout front (conditionsFor job)

theorem guarded_commands {log : List Action}
    (guarded : ∀ before action after, log = before ++ action :: after → Guarded env before action)
    (timeout : Int) (cmds : List String) :
    ∀ before action after, log ++ commands timeout cmds = before ++ action :: after →
      Guarded env before action := by
  induction cmds using List.reverseRecOn with
  | nil =>
      rw [commands, List.map_nil, List.append_nil]
      exact guarded
  | append_singleton front cmd ih =>
      rw [commands, List.map_append, ← List.append_assoc]
      exact (forall_splits_append_single _ _).mpr ⟨ih, trivial⟩

theorem guarded_run {log : List Action} (job : ConditionalJob)
    (guarded : ∀ before action after, log = before ++ action :: after → Guarded env before action) :
    ∀ before action after, (run env job log).2 = before ++ action :: after →
      Guarded env before action := by
  have ran := run_spec env job log
  revert ran
  generalize (run env job log).1 = outcome
  generalize (run env job log).2 = log'
  intro ran
  cases ran with
  | executed passed check all =>
      rw [forall_splits_append_single]
      exact ⟨guarded_commands env guarded _ _, log, rfl, passed⟩
  | skipped front cmd => exact guarded_commands env guarded _ _
  | raised front cmd => exact guarded_commands env guarded _ _

theorem log_call (s : Served) (job : ConditionalJob) : (call env s job).log = (run env job s.log).2 := by
  rw [call]
  split <;> rename_i ran <;> rw [ran]

/-- **No job is executed unless its conditions have just passed.**  In front of every execution
stand the conditions of the job, in order, each of which exited with `0` when it was run. -/
theorem guarded (jobs : List ConditionalJob) :
    ∀ before job after, (serve env jobs).log = before ++ .execute job :: after →
      ∃ front, before = front ++ commands env.conditionTimeout (conditionsFor job) ∧
        Passed env.shell env.conditionTimeout front (conditionsFor job) := by
  have all : ∀ before action after, (serve env jobs).log = before ++ action :: after →
      Guarded env before action := by
    induction jobs using List.reverseRecOn with
    | nil => exact forall_splits_nil
    | append_singleton before job ih =>
        rw [serve_append_single, log_call]
        exact guarded_run env job ih
  exact fun before job after split => all before (.execute job) after split

/-- A shell in which `false` fails. -/
def plainShell : Env where
  shell := fun _ command _ => .finished (if command = "false" then 1 else 0) "" ""
  inner := fun _ _ => .error (.foreign "no space left")

/-- One call that is skipped, and one that is executed. -/
def backupCalls : List ConditionalJob := [
  { name := "backup", schedule := "0 3 * * *", command := "run", conditions := some ["true", "false"] },
  { name := "backup", schedule := "0 3 * * *", command := "run", conditions := some ["true"] }]

theorem guarded_backup :
    ∃ before job after, (serve plainShell backupCalls).log = before ++ .execute job :: after ∧
      ∃ front, before = front ++ commands 10 (conditionsFor job) ∧
        Passed plainShell.shell 10 front (conditionsFor job) :=
  ⟨[.command "true" 10, .command "false" 10, .command "true" 10],
    { name := "backup", schedule := "0 3 * * *", command := "run", conditions := some ["true"] }, [],
    rfl, guarded plainShell backupCalls _ _ _ rfl⟩

/-! ## Every call counts -/

/-- The executions of jobs whose names have a property. -/
def executions (p : String → Bool) (log : List Action) : Nat :=
  log.countP fun
    | .command _ _ => false
    | .execute job => p job.name

def skips (p : String → Bool) (results : List Result) : Nat :=
  results.countP fun result => result.skipped && p result.jobName

theorem executions_commands (p : String → Bool) (log : List Action) (timeout : Int)
    (cmds : List String) : executions p (log ++ commands timeout cmds) = executions p log := by
  rw [executions, List.countP_append, commands, List.countP_map, ← executions,
    Nat.add_eq_left]
  exact List.countP_eq_zero.mpr fun _ _ => Bool.false_ne_true

theorem executions_append_single (p : String → Bool) (log : List Action) (job : ConditionalJob) :
    executions p (log ++ [.execute job]) = executions p log + if p job.name then 1 else 0 := by
  rw [executions, List.countP_append, List.countP_singleton]
  rfl

theorem skips_append_single (p : String → Bool) (results : List Result) (result : Result) :
    skips p (results ++ [result]) =
      skips p results + if result.skipped && p result.jobName then 1 else 0 := by
  rw [skips, List.countP_append, List.countP_singleton, ← skips]

/-- The reason names a condition of the job, and how it ended. -/
def Named (job : ConditionalJob) (reason : String) : Prop :=
  ∃ command ∈ conditionsFor job, ∃ code : Int, code ≠ 0 ∧
    reason = s!"condition failed (exit {code}): {command}"

theorem named_of_failed {job : ConditionalJob} {cmd : String} (member : cmd ∈ conditionsFor job)
    {log : List Action} {bad : ConditionResult}
    (evaluated : evaluateCondition env.shell env.conditionTimeout cmd log = .ok bad)
    (failed : bad.failed = true) {check : ConditionCheck} (first : check.firstFailure = some bad) :
    Named job (skipReason check) := by
  rw [evaluateCondition] at evaluated
  cases ended : env.shell log cmd env.conditionTimeout with
  | finished returncode stdout stderr =>
      rw [ended] at evaluated
      cases evaluated
      have nonzero : returncode ≠ 0 := by simpa [ConditionResult.failed] using failed
      exact ⟨cmd, member, returncode, nonzero, by rw [skipReason, first]⟩
  | expired =>
      rw [ended] at evaluated
      cases evaluated
      exact ⟨cmd, member, -1, by decide, by rw [skipReason, first]⟩
  | raised e =>
      rw [ended] at evaluated
      cases evaluated

/-- One call is an execution, or a skip for a reason. -/
theorem call_counts (answers : ∀ log command timeout e, env.shell log command timeout ≠ .raised e)
    (s : Served) (job : ConditionalJob) (p : String → Bool) :
    executions p (call env s job).log + skips p (call env s job).results =
        executions p s.log + skips p s.results + (if p job.name then 1 else 0) ∧
      ∀ result ∈ (call env s job).results, result ∈ s.results ∨
        result.jobName = job.name ∧
          (result.skipped = true → ∃ reason, result.skipReason = some reason ∧ Named job reason) := by
  have ran := run_spec env job s.log
  rw [call]
  generalize run env job s.log = answer at ran
  obtain ⟨outcome, log⟩ := answer
  dsimp only at ran
  cases ran with
  | executed passed check all =>
      cases inner : env.inner (s.log ++ commands env.conditionTimeout (conditionsFor job)) job with
      | error e =>
          dsimp only [Except.map]
          rw [executions_append_single, executions_commands]
          exact ⟨by omega, fun result member => .inl member⟩
      | ok result =>
          dsimp only [Except.map]
          rw [executions_append_single, executions_commands, skips_append_single]
          refine ⟨by simp [executed]; omega, fun result' member => ?_⟩
          rw [List.mem_append, List.mem_singleton] at member
          refine member.imp_right fun same => ?_
          subst same
          exact ⟨rfl, fun skipped => nomatch skipped⟩
  | skipped front cmd back split passed bad evaluated failed check first =>
      dsimp only
      rw [executions_commands, skips_append_single]
      refine ⟨by simp [skip]; omega, fun result member => ?_⟩
      rw [List.mem_append, List.mem_singleton] at member
      refine member.imp_right fun same => ?_
      subst same
      have among : cmd ∈ conditionsFor job := by simp [split]
      exact ⟨rfl, fun _ => ⟨skipReason check, rfl, named_of_failed env among evaluated failed first⟩⟩
  | raised front cmd back split passed e evaluated =>
      rw [evaluateCondition] at evaluated
      cases ended : env.shell (s.log ++ commands env.conditionTimeout front) cmd env.conditionTimeout with
      | finished returncode stdout stderr =>
          rw [ended] at evaluated
          cases evaluated
      | expired =>
          rw [ended] at evaluated
          cases evaluated
      | raised e => exact absurd ended (answers _ _ _ e)

/-- The counts after all calls, and where the reasons come from. -/
theorem serve_counts (answers : ∀ log command timeout e, env.shell log command timeout ≠ .raised e)
    (jobs : List ConditionalJob) (p : String → Bool) :
    executions p (serve env jobs).log + skips p (serve env jobs).results =
        jobs.countP (fun job => p job.name) ∧
      ∀ result ∈ (serve env jobs).results, result.skipped = true →
        ∃ job ∈ jobs, result.jobName = job.name ∧
          ∃ reason, result.skipReason = some reason ∧ Named job reason := by
  induction jobs using List.reverseRecOn with
  | nil => exact ⟨rfl, fun result member => nomatch member⟩
  | append_singleton before job ih =>
      obtain ⟨counted, named⟩ := call_counts env answers (serve env before) job p
      rw [serve_append_single, List.countP_append, List.countP_singleton, ← ih.1]
      refine ⟨counted, fun result member skipped => ?_⟩
      rcases named result member with earlier | ⟨same, now⟩
      · obtain ⟨job', member', rest⟩ := ih.2 result earlier skipped
        exact ⟨job', List.mem_append_left _ member', rest⟩
      · exact ⟨job, by simp, same, now skipped⟩

/-- The reporter has been given every result. -/
theorem reporter_serve (jobs : List ConditionalJob) : (serve env jobs).reporter =
    ConditionReporter.run ((serve env jobs).results.map Result.toConditionalResult) := by
  induction jobs using List.reverseRecOn with
  | nil => rfl
  | append_singleton before job ih =>
      rw [serve_append_single, call]
      split
      · exact ih
      · dsimp only
        rw [ih, List.map_append, List.map_singleton, ConditionReporter.run_append_single]

theorem length_reasonsFor (results : List Result) (jobName : String) :
    (ConditionReporter.reasonsFor (results.map Result.toConditionalResult) jobName).length =
      skips (fun name => name = jobName) results := by
  rw [ConditionReporter.reasonsFor, List.length_map, ← List.countP_eq_length_filter,
    List.countP_map]
  rfl

/-- **Every call is an execution or a counted skip.**  Where the shell answers every command, the
executions of a job and its skips in the reporter are the calls with a job of that name; all
executions and all skips are all calls; and each reason names a condition of such a job and the
code other than `0` that it ended with. -/
theorem conserves (answers : ∀ log command timeout e, env.shell log command timeout ≠ .raised e)
    (jobs : List ConditionalJob) :
    (∀ jobName, executions (fun name => name = jobName) (serve env jobs).log +
        ((serve env jobs).reporter.summaryFor jobName).skipCount =
          jobs.countP fun job => job.name = jobName) ∧
      executions (fun _ => true) (serve env jobs).log + (serve env jobs).reporter.totalSkips =
        jobs.length ∧
      ∀ jobName, ∀ reason ∈ ((serve env jobs).reporter.summaryFor jobName).reasons,
        ∃ job ∈ jobs, job.name = jobName ∧ Named job reason := by
  refine ⟨fun jobName => ?_, ?_, fun jobName reason member => ?_⟩
  · rw [reporter_serve, ConditionReporter.summaryFor_run]
    dsimp only
    rw [length_reasonsFor]
    exact (serve_counts env answers jobs _).1
  · have counted := (serve_counts env answers jobs fun _ => true).1
    rw [List.countP_true] at counted
    rw [reporter_serve, ConditionReporter.totalSkips_run, List.countP_map, ← counted]
    congr 1
    simp [skips, Function.comp_def]
  · rw [reporter_serve, ConditionReporter.summaryFor_run] at member
    obtain ⟨_, among, rfl⟩ := List.mem_map.mp member
    obtain ⟨recorded, both⟩ := List.mem_filter.mp among
    obtain ⟨result, returned, rfl⟩ := List.mem_map.mp recorded
    rw [Bool.and_eq_true, decide_eq_true_eq] at both
    obtain ⟨job, called, same, reason, given, named⟩ :=
      (serve_counts env answers jobs fun _ => true).2 result returned both.1
    refine ⟨job, called, same.symm.trans both.2, ?_⟩
    have text : reason ≠ "" := by
      obtain ⟨command, -, code, -, rfl⟩ := named
      intro empty
      have length := congrArg String.length empty
      simp [toString] at length
    rw [ConditionReporter.reasonOf, given]
    dsimp only
    rw [if_neg text]
    exact named

theorem conserves_backup :
    (∀ log command timeout e, plainShell.shell log command timeout ≠ .raised e) ∧
      executions (fun name => name = "backup") (serve plainShell backupCalls).log = 1 ∧
      executions (fun name => name = "backup") (serve plainShell backupCalls).log +
        ((serve plainShell backupCalls).reporter.summaryFor "backup").skipCount = 2 := by
  have answers : ∀ log command timeout e, plainShell.shell log command timeout ≠ .raised e :=
    fun _ _ _ _ same => nomatch same
  exact ⟨answers, rfl, (conserves plainShell answers backupCalls).1 "backup"⟩

end Cronwatch.Jobs.ConditionalExecutor
