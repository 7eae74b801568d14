/-
# Jobs.Conditions -- shell commands that decide whether a job runs, and hooks around it

A condition is a command that has to exit with `0`.  `check_conditions` runs the conditions of a
job in order and stops at the first that does not; a hook is run whatever the ones before it
came to.  What a command does may depend on everything that was run before: a `Shell` is given
the log of it.

`checkLoop_spec` says what one check runs and finds.  Where the same commands return as hooks, a
check finds what the hooks find, up to the first that fails (`checkConditions_of_hooks`).
-/
import Cronwatch.Jobs.Config
import Cronwatch.Runtime.Python
import Cronwatch.Runtime.Text
import Cronwatch.Theory.Splits

namespace Cronwatch.Jobs

set_option autoImplicit false

open Cronwatch.Theory Cronwatch.Runtime

structure ConditionalJob extends JobConfig where
  /-- An attribute that `JobConfig` does not declare. -/
  conditions : Option (List String) := none

/-- What has been run. -/
inductive Action where
  | command (command : String) (timeout : Int)
  | execute (job : ConditionalJob)

/-- How `subprocess.run` of a command ends. -/
inductive Completion where
  | finished (returncode : Int) (stdout stderr : String)
  /-- `TimeoutExpired`. -/
  | expired
  | raised (e : PyException)

abbrev Shell := List Action → String → Int → Completion

/-! ## Conditions -/

structure ConditionResult where
  command : String
  passed : Bool
  returncode : Int
  stderr : String := ""
deriving DecidableEq

def ConditionResult.failed (result : ConditionResult) : Bool := !result.passed

structure ConditionCheck where
  jobName : String
  results : List ConditionResult := []
deriving DecidableEq

namespace ConditionCheck

def allPassed (check : ConditionCheck) : Bool := check.results.all ConditionResult.passed

def firstFailure (check : ConditionCheck) : Option ConditionResult :=
  check.results.find? ConditionResult.failed

def add (result : ConditionResult) (check : ConditionCheck) : ConditionCheck :=
  { check with results := check.results ++ [result] }

end ConditionCheck

def conditionsFor (job : ConditionalJob) : List String := job.conditions.getD []

section Check

variable (shell : Shell) (timeout : Int)

def evaluateCondition (command : String) (log : List Action) : Except PyException ConditionResult :=
  match shell log command timeout with
  | .finished returncode _ stderr => .ok {
      command
      passed := returncode = 0
      returncode
      stderr := String.ofList (strip stderr.toList) }
  | .expired => .ok { command, passed := false, returncode := -1, stderr := "condition timed out" }
  | .raised e => .error e

/-- The loop of `check_conditions`, with the log that it leaves. -/
def checkLoop : List String → ConditionCheck → List Action →
    Except PyException ConditionCheck × List Action
  | [], check, log => (.ok check, log)
  | command :: rest, check, log =>
      match evaluateCondition shell timeout command log with
      | .error e => (.error e, log ++ [.command command timeout])
      | .ok result =>
          if result.failed then (.ok (check.add result), log ++ [.command command timeout])
          else checkLoop rest (check.add result) (log ++ [.command command timeout])

def checkConditions (job : ConditionalJob) (log : List Action) :
    Except PyException ConditionCheck × List Action :=
  checkLoop shell timeout (conditionsFor job) { jobName := job.name } log

/-! ## Hooks -/

structure HookResult where
  hookCmd : String
  returncode : Int
  stdout : String
  stderr : String
deriving DecidableEq

def HookResult.success (result : HookResult) : Bool := result.returncode = 0

def runHook (cmd : String) (log : List Action) : Except PyException HookResult :=
  match shell log cmd timeout with
  | .finished returncode stdout stderr => .ok { hookCmd := cmd, returncode, stdout, stderr }
  | .expired => .ok { hookCmd := cmd, returncode := -1, stdout := "", stderr := "hook timed out" }
  | .raised e => .error e

/-- The comprehension of `run_pre_hooks` and of `run_post_hooks`. -/
def runHooks : List String → List Action → Except PyException (List HookResult) × List Action
  | [], log => (.ok [], log)
  | cmd :: rest, log =>
      match runHook shell timeout cmd log with
      | .error e => (.error e, log ++ [.command cmd timeout])
      | .ok result =>
          match runHooks rest (log ++ [.command cmd timeout]) with
          | (.error e, log) => (.error e, log)
          | (.ok results, log) => (.ok (result :: results), log)

end Check

structure HookedJob extends JobConfig where
  preHooks : Option (List String) := none
  postHooks : Option (List String) := none

structure HookPolicy where
  globalPre : List String := []
  globalPost : List String := []
  hookTimeout : Int := 30

namespace HookPolicy

def preHooks (policy : HookPolicy) (job : HookedJob) : List String :=
  policy.globalPre ++ job.preHooks.getD []

def postHooks (policy : HookPolicy) (job : HookedJob) : List String :=
  policy.globalPost ++ job.postHooks.getD []

end HookPolicy

def runPreHooks (shell : Shell) (policy : HookPolicy) (job : HookedJob) (log : List Action) :
    Except PyException (List HookResult) × List Action :=
  runHooks shell policy.hookTimeout (policy.preHooks job) log

def runPostHooks (shell : Shell) (policy : HookPolicy) (job : HookedJob) (log : List Action) :
    Except PyException (List HookResult) × List Action :=
  runHooks shell policy.hookTimeout (policy.postHooks job) log

/-! ## What a check runs and finds -/

section Spec

variable (shell : Shell) (timeout : Int)

/-- The log of commands run one after the other. -/
def commands (cmds : List String) : List Action := cmds.map fun cmd => .command cmd timeout

/-- Each command exits with `0` when its turn comes. -/
def Passed (log : List Action) (cmds : List String) : Prop :=
  ∀ front cmd back, cmds = front ++ cmd :: back →
    ∃ stdout stderr, shell (log ++ commands timeout front) cmd timeout = .finished 0 stdout stderr

/-- What a check of the commands comes to, and the log that it leaves. -/
inductive Checked (cmds : List String) (check : ConditionCheck) (log : List Action) :
    Except PyException ConditionCheck → List Action → Prop
  | passed (all : Passed shell timeout log cmds) (results : List ConditionResult)
      (good : ∀ result ∈ results, result.passed = true) :
      Checked cmds check log (.ok { check with results := check.results ++ results })
        (log ++ commands timeout cmds)
  | failed (front : List String) (cmd : String) (back : List String) (split : cmds = front ++ cmd :: back)
      (all : Passed shell timeout log front) (results : List ConditionResult)
      (good : ∀ result ∈ results, result.passed = true) (bad : ConditionResult)
      (evaluated : evaluateCondition shell timeout cmd (log ++ commands timeout front) = .ok bad)
      (failed : bad.failed = true) :
      Checked cmds check log (.ok { check with results := check.results ++ (results ++ [bad]) })
        (log ++ commands timeout (front ++ [cmd]))
  | raised (front : List String) (cmd : String) (back : List String) (split : cmds = front ++ cmd :: back)
      (all : Passed shell timeout log front) (e : PyException)
      (evaluated : evaluateCondition shell timeout cmd (log ++ commands timeout front) = .error e) :
      Checked cmds check log (.error e) (log ++ commands timeout (front ++ [cmd]))

variable {shell timeout}

theorem passed_nil (log : List Action) : Passed shell timeout log [] := by
  intro front cmd back split
  simp at split

theorem Passed.cons {log : List Action} {cmd : String} {rest : List String} {stdout stderr : String}
    (first : shell log cmd timeout = .finished 0 stdout stderr)
    (others : Passed shell timeout (log ++ [.command cmd timeout]) rest) :
    Passed shell timeout log (cmd :: rest) := by
  apply forall_splits_cons
  · refine ⟨stdout, stderr, ?_⟩
    rw [commands, List.map_nil, List.append_nil]
    exact first
  · intro before a after split
    obtain ⟨out, err, ended⟩ := others before a after split
    refine ⟨out, err, ?_⟩
    rw [← ended, commands, List.map_cons, List.append_cons, commands]

/-- A condition that passes has exited with `0`. -/
theorem finished_of_passed {command : String} {log : List Action} {result : ConditionResult}
    (evaluated : evaluateCondition shell timeout command log = .ok result)
    (passed : result.failed = false) :
    ∃ stdout stderr, shell log command timeout = .finished 0 stdout stderr := by
  rw [evaluateCondition] at evaluated
  cases ended : shell log command timeout with
  | finished returncode stdout stderr =>
      rw [ended] at evaluated
      cases evaluated
      have zero : returncode = 0 := by simpa [ConditionResult.failed] using passed
      exact ⟨stdout, stderr, by rw [zero]⟩
  | expired =>
      rw [ended] at evaluated
      cases evaluated
      cases passed
  | raised e =>
      rw [ended] at evaluated
      cases evaluated

theorem append_commands_cons (log : List Action) (cmd : String) (rest : List String) :
    log ++ commands timeout (cmd :: rest) = log ++ [.command cmd timeout] ++ commands timeout rest := by
  rw [commands, List.map_cons, List.append_cons, commands]

/-- A check that goes on after a condition that passed. -/
theorem Checked.cons {cmd : String} {rest : List String} {check : ConditionCheck} {log log' : List Action}
    {result : ConditionResult} (evaluated : evaluateCondition shell timeout cmd log = .ok result)
    (passed : result.failed = false) {outcome : Except PyException ConditionCheck}
    (checked : Checked shell timeout rest (check.add result) (log ++ [.command cmd timeout]) outcome log') :
    Checked shell timeout (cmd :: rest) check log outcome log' := by
  obtain ⟨stdout, stderr, first⟩ := finished_of_passed evaluated passed
  have good : result.passed = true := by simpa [ConditionResult.failed] using passed
  cases checked with
  | passed all results others =>
      rw [← append_commands_cons, ConditionCheck.add, List.append_assoc]
      exact .passed (all.cons first) (result :: results) (List.forall_mem_cons.mpr ⟨good, others⟩)
  | failed front cmd' back split all results others bad evaluated' failed =>
      rw [← append_commands_cons, ConditionCheck.add, List.append_assoc]
      refine .failed (cmd :: front) cmd' back (by rw [split]; rfl) (all.cons first) (result :: results)
        (List.forall_mem_cons.mpr ⟨good, others⟩) bad ?_ failed
      rw [append_commands_cons]
      exact evaluated'
  | raised front cmd' back split all e evaluated' =>
      rw [← append_commands_cons]
      refine .raised (cmd :: front) cmd' back (by rw [split]; rfl) (all.cons first) e ?_
      rw [append_commands_cons]
      exact evaluated'

theorem checkLoop_spec (cmds : List String) (check : ConditionCheck) (log : List Action) :
    Checked shell timeout cmds check log (checkLoop shell timeout cmds check log).1
      (checkLoop shell timeout cmds check log).2 := by
  induction cmds generalizing check log with
  | nil =>
      have done : Checked shell timeout [] check log (.ok { check with results := check.results ++ [] })
          (log ++ commands timeout []) := .passed (passed_nil log) [] fun _ member => nomatch member
      rwa [List.append_nil, commands, List.map_nil, List.append_nil] at done
  | cons cmd rest ih =>
      have here : log ++ commands timeout [] = log := List.append_nil log
      rw [checkLoop]
      cases evaluated : evaluateCondition shell timeout cmd log with
      | error e => exact .raised [] cmd rest rfl (passed_nil log) e (by rw [here, evaluated])
      | ok result =>
          dsimp only
          split
          · rename_i failed
            exact .failed [] cmd rest rfl (passed_nil log) [] (fun _ member => nomatch member) result
              (by rw [here, evaluated]) failed
          · rename_i passed
            exact (ih (check.add result) _).cons evaluated (Bool.eq_false_iff.mpr passed)

end Spec

/-! ## Conditions and hooks -/

/-- The items up to the first with a property, and that one. -/
def upTo {α : Type} (p : α → Bool) : List α → List α
  | [] => []
  | a :: rest => if p a then [a] else a :: upTo p rest

def ConditionResult.outcome (result : ConditionResult) : String × Int :=
  (result.command, result.returncode)

def HookResult.outcome (result : HookResult) : String × Int := (result.hookCmd, result.returncode)

section Hooks

variable {shell : Shell} {timeout : Int}

/-- One command run as a hook and as a condition. -/
theorem evaluateCondition_of_runHook {cmd : String} {log : List Action} {hook : HookResult}
    (ran : runHook shell timeout cmd log = .ok hook) :
    ∃ result, evaluateCondition shell timeout cmd log = .ok result ∧
      result.outcome = hook.outcome ∧ result.failed = !hook.success := by
  rw [runHook] at ran
  rw [evaluateCondition]
  cases ended : shell log cmd timeout with
  | finished returncode stdout stderr =>
      rw [ended] at ran
      cases ran
      exact ⟨_, rfl, rfl, rfl⟩
  | expired =>
      rw [ended] at ran
      cases ran
      exact ⟨_, rfl, rfl, rfl⟩
  | raised e =>
      rw [ended] at ran
      cases ran

theorem runHooks_cons_ok {cmd : String} {rest : List String} {log log' : List Action}
    {results : List HookResult} (ran : runHooks shell timeout (cmd :: rest) log = (.ok results, log')) :
    ∃ first others, runHook shell timeout cmd log = .ok first ∧
      runHooks shell timeout rest (log ++ [.command cmd timeout]) = (.ok others, log') ∧
      results = first :: others := by
  rw [runHooks] at ran
  cases one : runHook shell timeout cmd log with
  | error e =>
      rw [one] at ran
      cases ran
  | ok first =>
      rw [one] at ran
      dsimp only at ran
      cases more : runHooks shell timeout rest (log ++ [.command cmd timeout]) with
      | mk answer left =>
          rw [more] at ran
          cases answer with
          | error e => cases ran
          | ok others =>
              cases ran
              exact ⟨first, others, rfl, rfl, rfl⟩

/-- Hooks only add to the log. -/
theorem prefix_runHooks {cmds : List String} {log log' : List Action} {results : List HookResult}
    (ran : runHooks shell timeout cmds log = (.ok results, log')) : log <+: log' := by
  induction cmds generalizing log results with
  | nil =>
      cases ran
      exact List.prefix_rfl
  | cons cmd rest ih =>
      obtain ⟨_, _, -, more, -⟩ := runHooks_cons_ok ran
      exact (List.prefix_append log _).trans (ih more)

theorem checkLoop_of_hooks {cmds : List String} {log log' : List Action} {hooks : List HookResult}
    (ran : runHooks shell timeout cmds log = (.ok hooks, log')) (check : ConditionCheck) :
    ∃ results left, checkLoop shell timeout cmds check log =
        (.ok { check with results := check.results ++ results }, left) ∧
      results.map ConditionResult.outcome = (upTo (fun h => !h.success) hooks).map HookResult.outcome ∧
      left <+: log' ∧ (results.all ConditionResult.passed = hooks.all HookResult.success) := by
  induction cmds generalizing log hooks check with
  | nil =>
      cases ran
      exact ⟨[], _, by rw [checkLoop, List.append_nil], rfl, List.prefix_rfl, rfl⟩
  | cons cmd rest ih =>
      obtain ⟨first, others, one, more, rfl⟩ := runHooks_cons_ok ran
      obtain ⟨result, evaluated, same, failed⟩ := evaluateCondition_of_runHook one
      have passed : result.passed = first.success := by
        rw [ConditionResult.failed] at failed
        exact Bool.not_inj failed
      rw [checkLoop, evaluated]
      dsimp only
      cases good : first.success with
      | false =>
          rw [good, Bool.not_false] at failed
          rw [good] at passed
          have cut : upTo (fun h : HookResult => !h.success) (first :: others) = [first] := by
            simp [upTo, good]
          rw [if_pos failed, cut]
          refine ⟨[result], _, rfl, by simp [same], prefix_runHooks more, ?_⟩
          rw [List.all_cons, List.all_cons, passed, good, Bool.false_and, Bool.false_and]
      | true =>
          rw [good, Bool.not_true] at failed
          rw [good] at passed
          have on : upTo (fun h : HookResult => !h.success) (first :: others) =
              first :: upTo (fun h => !h.success) others := by
            simp [upTo, good]
          obtain ⟨results, left, checked, outcomes, shorter, all⟩ := ih more (check.add result)
          rw [if_neg (Bool.eq_false_iff.mp failed), checked, on]
          refine ⟨result :: results, left, ?_, ?_, shorter, ?_⟩
          · rw [ConditionCheck.add, List.append_assoc]
            rfl
          · rw [List.map_cons, List.map_cons, same, outcomes]
          · rw [List.all_cons, List.all_cons, passed, good, all]

/-- **Conditions are hooks that stop at the first failure.**  Where the commands return as hooks,
the check returns; it finds what the hooks found up to the first that failed, runs no more than
they did, and all conditions pass exactly where all hooks succeed. -/
theorem checkConditions_of_hooks (job : ConditionalJob) (log log' : List Action)
    (hooks : List HookResult) (ran : runHooks shell timeout (conditionsFor job) log = (.ok hooks, log')) :
    ∃ check left, checkConditions shell timeout job log = (.ok check, left) ∧
      check.results.map ConditionResult.outcome =
        (upTo (fun h => !h.success) hooks).map HookResult.outcome ∧
      left <+: log' ∧ check.allPassed = hooks.all HookResult.success := by
  obtain ⟨results, left, checked, outcomes, shorter, all⟩ := checkLoop_of_hooks ran { jobName := job.name }
  exact ⟨_, left, checked, outcomes, shorter, all⟩

end Hooks

/-- A shell in which the second command fails. -/
def secondFails : Shell := fun log _ _ => .finished (if log.length = 1 then 1 else 0) "" ""

def backupWithChecks : ConditionalJob where
  name := "backup"
  command := "backup.sh"
  schedule := "0 2 * * *"
  conditions := some ["test -d /mnt", "test -w /mnt", "true"]

theorem checkConditions_backup :
    ∃ check left, checkConditions secondFails 10 backupWithChecks [] = (.ok check, left) ∧
      check.results.map ConditionResult.outcome = [("test -d /mnt", 0), ("test -w /mnt", 1)] ∧
      left <+: commands 10 ["test -d /mnt", "test -w /mnt", "true"] ∧ check.allPassed = false :=
  checkConditions_of_hooks backupWithChecks [] _
    [⟨"test -d /mnt", 0, "", ""⟩, ⟨"test -w /mnt", 1, "", ""⟩, ⟨"true", 0, "", ""⟩] rfl

end Cronwatch.Jobs
