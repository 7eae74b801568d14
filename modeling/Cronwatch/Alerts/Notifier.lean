/-
# Alerts.Notifier -- which results are worth a notification

`Notifier` remembers per job when it last notified, how many runs failed in a row and
the exit code of the last result.  A failure is notified when the minimum interval since
the last notification is over, a success when the result before it was a failure.

The last exit code stands in for that failure, so a failure with exit code 0 (a run
that timed out, or carries an error) is taken for a success: recoveries are notified
exactly in the runs in which no success follows such a failure (`recovery_iff`).
-/
import Cronwatch.Jobs.Execution
import Cronwatch.Theory.Dict
import Cronwatch.Theory.Keyed
import Mathlib.Algebra.Order.Field.Rat
import Mathlib.Data.List.Induction

namespace Cronwatch.Alerts

set_option autoImplicit false

open Cronwatch.Theory Cronwatch.Jobs

structure NotifierState where
  lastNotifiedAt : ℚ := 0
  consecutiveFailures : Nat := 0
  lastExitCode : Option Int := none
deriving DecidableEq

structure Notifier (minIntervalSeconds : ℚ) (notifyOnRecovery : Bool) where
  states : Dict String NotifierState := .empty

namespace Notifier

variable {minIntervalSeconds : ℚ} {notifyOnRecovery : Bool}

/-- The state `_get_state(job_name)` finds or creates. -/
def getState (n : Notifier minIntervalSeconds notifyOnRecovery) (jobName : String) :
    NotifierState :=
  (n.states.get? jobName).getD {}

def put (n : Notifier minIntervalSeconds notifyOnRecovery) (jobName : String)
    (state : NotifierState) : Notifier minIntervalSeconds notifyOnRecovery where
  states := n.states.set jobName state

/-- The body of `should_notify`, on the state of the job. -/
def judge (minIntervalSeconds : ℚ) (notifyOnRecovery : Bool) (now : ℚ) (result : ExecutionResult)
    (state : NotifierState) : Bool × NotifierState :=
  if result.success then
    let wasFailing := state.lastExitCode.isSome ∧ state.lastExitCode ≠ some 0
    let state := { state with consecutiveFailures := 0, lastExitCode := some 0 }
    if wasFailing ∧ notifyOnRecovery then (true, { state with lastNotifiedAt := now })
    else (false, state)
  else
    let state := { state with
      consecutiveFailures := state.consecutiveFailures + 1, lastExitCode := some result.exitCode }
    let elapsed := now - state.lastNotifiedAt
    if minIntervalSeconds ≤ elapsed then (true, { state with lastNotifiedAt := now })
    else (false, state)

def shouldNotify (now : ℚ) (result : ExecutionResult)
    (n : Notifier minIntervalSeconds notifyOnRecovery) :
    Bool × Notifier minIntervalSeconds notifyOnRecovery :=
  let judged := judge minIntervalSeconds notifyOnRecovery now result (n.getState result.jobName)
  (judged.1, n.put result.jobName judged.2)

def reset (jobName : String) (n : Notifier minIntervalSeconds notifyOnRecovery) :
    Notifier minIntervalSeconds notifyOnRecovery where
  states := n.states.erase jobName

def consecutiveFailures (jobName : String) (n : Notifier minIntervalSeconds notifyOnRecovery) :
    Nat × Notifier minIntervalSeconds notifyOnRecovery :=
  ((n.getState jobName).consecutiveFailures, n.put jobName (n.getState jobName))

/-- A call, with the reading of the clock at the time. -/
inductive Event where
  | shouldNotify (result : ExecutionResult) (now : ℚ)
  | reset (jobName : String)
deriving DecidableEq

def Event.jobName : Event → String
  | .shouldNotify result _ => result.jobName
  | .reset jobName => jobName

/-- What `should_notify` answers; `reset` answers nothing. -/
def step (n : Notifier minIntervalSeconds notifyOnRecovery) :
    Event → Option Bool × Notifier minIntervalSeconds notifyOnRecovery
  | .shouldNotify result now => (some (n.shouldNotify now result).1, (n.shouldNotify now result).2)
  | .reset jobName => (none, n.reset jobName)

/-! ## One job at a time -/

/-- A call on the state of its job. -/
def own (minIntervalSeconds : ℚ) (notifyOnRecovery : Bool) (state : NotifierState) :
    Event → Option Bool × NotifierState
  | .shouldNotify result now =>
      (some (judge minIntervalSeconds notifyOnRecovery now result state).1,
        (judge minIntervalSeconds notifyOnRecovery now result state).2)
  | .reset _ => (none, {})

@[simp] theorem getState_put (n : Notifier minIntervalSeconds notifyOnRecovery) (jobName : String)
    (s : NotifierState) (job : String) :
    (n.put jobName s).getState job = if job = jobName then s else n.getState job := by
  simp only [getState, put, Dict.get?_set]
  split <;> rfl

@[simp] theorem getState_reset (n : Notifier minIntervalSeconds notifyOnRecovery)
    (jobName job : String) :
    (n.reset jobName).getState job = if job = jobName then {} else n.getState job := by
  simp only [getState, reset, Dict.get?_erase]
  split <;> rfl

def keyed (minIntervalSeconds : ℚ) (notifyOnRecovery : Bool) :
    Keyed (Notifier minIntervalSeconds notifyOnRecovery) Event (Option Bool) String
      NotifierState where
  step := step
  key := Event.jobName
  view := getState
  own := own minIntervalSeconds notifyOnRecovery
  answer_eq := by
    intro n e
    cases e <;> rfl
  view_eq := by
    intro n e job
    cases e with
    | shouldNotify result now =>
        rw [step, shouldNotify, getState_put, Event.jobName]
        split
        · rename_i same
          rw [same, own]
        · rfl
    | reset jobName => exact getState_reset n jobName job

section Run

variable (minIntervalSeconds : ℚ) (notifyOnRecovery : Bool)

/-- A new notifier after these calls. -/
abbrev run (events : List Event) : Notifier minIntervalSeconds notifyOnRecovery :=
  (keyed minIntervalSeconds notifyOnRecovery).run {} events

/-- The answer to one more call. -/
abbrev answer (events : List Event) (e : Event) : Option Bool :=
  ((run minIntervalSeconds notifyOnRecovery events).step e).1

/-! ## Recoveries -/

/-- The last result of the job since its last reset, given the one before a call. -/
def previousAfter (jobName : String) (previous : Option ExecutionResult) :
    Event → Option ExecutionResult
  | .shouldNotify result _ => if result.jobName = jobName then some result else previous
  | .reset job => if job = jobName then none else previous

def previous (jobName : String) (events : List Event) : Option ExecutionResult :=
  events.foldl (previousAfter jobName) none

theorem previous_append_single (jobName : String) (events : List Event) (e : Event) :
    previous jobName (events ++ [e]) = previousAfter jobName (previous jobName events) e := by
  rw [previous, List.foldl_append]
  rfl

theorem judge_lastExitCode (now : ℚ) (result : ExecutionResult) (state : NotifierState) :
    (judge minIntervalSeconds notifyOnRecovery now result state).2.lastExitCode =
      some result.exitCode := by
  unfold judge
  dsimp only
  split
  · rename_i succeeded
    have zero : result.exitCode = 0 := by
      simp only [ExecutionResult.success, decide_eq_true_eq] at succeeded
      exact succeeded.1
    rw [zero]
    split <;> rfl
  · split <;> rfl

/-- **What the notifier knows** of the last result: its exit code. -/
theorem lastExitCode_run (jobName : String) (events : List Event) :
    ((run minIntervalSeconds notifyOnRecovery events).getState jobName).lastExitCode =
      (previous jobName events).map ExecutionResult.exitCode := by
  induction events using List.reverseRecOn with
  | nil => rfl
  | append_singleton before e ih =>
      rw [run, Keyed.run_append_single, previous_append_single]
      cases e with
      | shouldNotify result now =>
          refine (congrArg NotifierState.lastExitCode (getState_put _ _ _ _)).trans ?_
          rw [previousAfter]
          by_cases same : result.jobName = jobName
          · rw [if_pos same.symm, if_pos same, judge_lastExitCode]
            rfl
          · rw [if_neg fun eq => same eq.symm, if_neg same]
            exact ih
      | reset job =>
          refine (congrArg NotifierState.lastExitCode (getState_reset _ _ _)).trans ?_
          rw [previousAfter]
          by_cases same : job = jobName
          · rw [if_pos same.symm, if_pos same]
            rfl
          · rw [if_neg fun eq => same eq.symm, if_neg same]
            exact ih

/-- A success is notified exactly when the exit code before it was another than 0. -/
theorem answer_success (before : List Event) {result : ExecutionResult}
    (succeeded : result.success = true) (now : ℚ) :
    answer minIntervalSeconds true before (.shouldNotify result now) = some true ↔
      ∃ earlier, previous result.jobName before = some earlier ∧ earlier.exitCode ≠ 0 := by
  have known := lastExitCode_run minIntervalSeconds true result.jobName before
  rw [answer, step, shouldNotify, judge, if_pos succeeded]
  dsimp only
  rw [known]
  cases previous result.jobName before with
  | none => simp
  | some earlier => by_cases zero : earlier.exitCode = 0 <;> simp [zero]

/-- **When recoveries are notified**: exactly when no success comes right after a failure
of its job with exit code 0. -/
theorem recovery_iff (events : List Event) :
    (∀ before result now after, events = before ++ .shouldNotify result now :: after →
      result.success = true →
      (answer minIntervalSeconds true before (.shouldNotify result now) = some true ↔
        ∃ earlier, previous result.jobName before = some earlier ∧ earlier.success = false)) ↔
    ∀ before result now after, events = before ++ .shouldNotify result now :: after →
      result.success = true → ∀ earlier, previous result.jobName before = some earlier →
        earlier.success = false → earlier.exitCode ≠ 0 := by
  refine forall_congr' fun before => forall_congr' fun result => forall_congr' fun now =>
    forall_congr' fun after => imp_congr_right fun _ => imp_congr_right fun succeeded => ?_
  rw [answer_success minIntervalSeconds before succeeded now]
  constructor
  · intro law earlier last failed
    obtain ⟨earlier', last', nonzero⟩ := law.mpr ⟨earlier, last, failed⟩
    rw [last] at last'
    cases last'
    exact nonzero
  · intro codes
    refine exists_congr fun earlier => and_congr_right fun last => ⟨fun nonzero => ?_, codes earlier last⟩
    simp [ExecutionResult.success, nonzero]

end Run

/-- A run that was killed when its time was up, after it had returned 0. -/
def killed : ExecutionResult where
  jobName := "backup"
  exitCode := 0
  stdout := ""
  stderr := ""
  durationSeconds := 30
  startedAt := 0
  finishedAt := 30
  timedOut := true

/-- The next run, which is in time. -/
def recovered : ExecutionResult := { killed with durationSeconds := 3, timedOut := false }

/-- The recovery is not notified. -/
theorem recovery_missed :
    previous "backup" [.shouldNotify killed 4000] = some killed ∧ killed.success = false ∧
      recovered.success = true ∧
      answer 3600 true [.shouldNotify killed 4000] (.shouldNotify recovered 4060) = some false := by
  decide +kernel

end Notifier

end Cronwatch.Alerts
