/-
# Alerts.FailureCounters -- four counts of the failures in a row

The status registry, the notifier, the circuit breaker and the escalation tracker count
the failures of a job in a row, each for itself.  Here all four are told of the same
results; between two results any of them may be read, jobs may be marked as running,
and the counts of other jobs may be changed in any way.

`counters_agree`: for a job whose own count nothing else changes, the four are equal at
every moment, and count the failed results of the job since its last successful one.
-/
import Cronwatch.Alerts.Escalation
import Cronwatch.Alerts.Notifier
import Cronwatch.Jobs.CircuitBreaker
import Cronwatch.Jobs.Status
import Cronwatch.Theory.Tally

namespace Cronwatch.Alerts

set_option autoImplicit false

open Cronwatch.Theory Cronwatch.Runtime Cronwatch.Jobs

structure FailureCounters (minIntervalSeconds : ℚ) (notifyOnRecovery : Bool) where
  registry : JobStatusRegistry := {}
  notifier : Notifier minIntervalSeconds notifyOnRecovery := {}
  breaker : CircuitBreaker
  tracker : EscalationTracker

namespace FailureCounters

/-- A call on one of the four that is not the report of a result to all. -/
inductive Op where
  | registryGet (jobName : String)
  | markRunning (jobName : String) (now : DateTime)
  | markFinished (jobName : String) (result : ExecutionResult) (now : DateTime)
  | registryReset (jobName : String)
  | notifierCall (e : Notifier.Event)
  | notifierConsecutiveFailures (jobName : String)
  | breakerCall (e : CircuitBreaker.Event)
  | breakerConsecutiveFailures (jobName : String)
  | recordFailure (jobName : String)
  | recordSuccess (jobName : String)
  | trackerConsecutiveFailures (jobName : String)
  | currentLevel (jobName : String)
  | escalated (jobName : String)

/-- The job whose count the call can change; reads and `mark_running` change none. -/
def Op.changed : Op → Option String
  | .markFinished jobName _ _ | .registryReset jobName | .recordFailure jobName
  | .recordSuccess jobName => some jobName
  | .notifierCall e => some e.jobName
  | .breakerCall (.isOpen _ _ _) => none
  | .breakerCall (.recordFailure jobName _) | .breakerCall (.recordSuccess jobName)
  | .breakerCall (.reset jobName) => some jobName
  | _ => none

inductive Event where
  /-- All four are told of the result, each at its own reading of its own clock. -/
  | feed (result : ExecutionResult) (finishedAt : DateTime) (monotonic : ℚ) (failedAt : DateTime)
  | call (op : Op)

def Event.fed : Event → Option ExecutionResult
  | .feed result _ _ _ => some result
  | .call _ => none

/-- Another call than a report can change the count of the job. -/
def Event.Touches (jobName : String) : Event → Prop
  | .feed _ _ _ _ => False
  | .call op => op.changed = some jobName

variable {minIntervalSeconds : ℚ} {notifyOnRecovery : Bool}

/-- `record_success` or `record_failure`, by `result.success`. -/
def reportToBreaker (result : ExecutionResult) (now : DateTime) (b : CircuitBreaker) :
    CircuitBreaker :=
  if result.success then b.recordSuccess result.jobName else b.recordFailure now result.jobName

def reportToTracker (result : ExecutionResult) (tracker : EscalationTracker) : EscalationTracker :=
  if result.success then tracker.recordSuccess result.jobName
  else (tracker.recordFailure result.jobName).2

def perform (c : FailureCounters minIntervalSeconds notifyOnRecovery) :
    Op → FailureCounters minIntervalSeconds notifyOnRecovery
  | .registryGet job => { c with registry := (c.registry.get job).2 }
  | .markRunning job now => { c with registry := c.registry.markRunning now job }
  | .markFinished job result now => { c with registry := c.registry.markFinished now job result }
  | .registryReset job => { c with registry := c.registry.reset job }
  | .notifierCall e => { c with notifier := (c.notifier.step e).2 }
  | .notifierConsecutiveFailures job =>
      { c with notifier := (c.notifier.consecutiveFailures job).2 }
  | .breakerCall e => { c with breaker := c.breaker.step e }
  | .breakerConsecutiveFailures job => { c with breaker := (c.breaker.consecutiveFailures job).2 }
  | .recordFailure job => { c with tracker := (c.tracker.recordFailure job).2 }
  | .recordSuccess job => { c with tracker := c.tracker.recordSuccess job }
  | .trackerConsecutiveFailures job => { c with tracker := (c.tracker.consecutiveFailures job).2 }
  | .currentLevel job => { c with tracker := (c.tracker.currentLevel job).2 }
  | .escalated job => { c with tracker := (c.tracker.escalated job).2 }

def step (c : FailureCounters minIntervalSeconds notifyOnRecovery) :
    Event → FailureCounters minIntervalSeconds notifyOnRecovery
  | .feed result finishedAt monotonic failedAt =>
      { registry := c.registry.markFinished finishedAt result.jobName result,
        notifier := (c.notifier.shouldNotify monotonic result).2,
        breaker := reportToBreaker result failedAt c.breaker,
        tracker := reportToTracker result c.tracker }
  | .call op => c.perform op

def run (c : FailureCounters minIntervalSeconds notifyOnRecovery) (events : List Event) :
    FailureCounters minIntervalSeconds notifyOnRecovery :=
  events.foldl step c

/-- Four new components. -/
def new (threshold recoveryWindow : Int) (policy : EscalationPolicy) :
    FailureCounters minIntervalSeconds notifyOnRecovery where
  breaker := CircuitBreaker.new threshold recoveryWindow
  tracker := { policy }

/-! ## The four counts -/

section Counts

variable (c : FailureCounters minIntervalSeconds notifyOnRecovery) (jobName : String)

def registryCount : Nat := (c.registry.get jobName).1.consecutiveFailures

def notifierCount : Nat := (c.notifier.consecutiveFailures jobName).1

def breakerCount : Nat := (c.breaker.consecutiveFailures jobName).1

def trackerCount : Nat := (c.tracker.consecutiveFailures jobName).1

end Counts

/-- What a count has to do: a report moves the count of its job, and a call moves none
but that of the job it can change. -/
structure CountsFailures
    (count : FailureCounters minIntervalSeconds notifyOnRecovery → String → Nat) : Prop where
  fed : ∀ c result finishedAt monotonic failedAt jobName,
    count (step c (.feed result finishedAt monotonic failedAt)) jobName =
      EscalatingAlerter.streakAfter jobName (count c jobName) result
  called : ∀ c op jobName, op.changed ≠ some jobName → count (c.perform op) jobName = count c jobName

/-- A count as a tally of the results. -/
def tally {count : FailureCounters minIntervalSeconds notifyOnRecovery → String → Nat}
    (counts : CountsFailures count) :
    Tally (FailureCounters minIntervalSeconds notifyOnRecovery) Event String ExecutionResult
      Nat where
  respond := step
  view := count
  told := Event.fed
  touches := fun e jobName => e.Touches jobName
  after := EscalatingAlerter.streakAfter
  view_told := by
    intro c e result jobName fed
    cases e with
    | feed result' finishedAt monotonic failedAt =>
        cases fed
        exact counts.fed c result finishedAt monotonic failedAt jobName
    | call op => cases fed
  view_untold := by
    intro c e jobName unfed untouched
    cases e with
    | feed result finishedAt monotonic failedAt => cases unfed
    | call op => exact counts.called c op jobName untouched

/-- **A count that starts at 0** is the number of failures since the last success. -/
theorem CountsFailures.run {count : FailureCounters minIntervalSeconds notifyOnRecovery → String → Nat}
    (counts : CountsFailures count) {c : FailureCounters minIntervalSeconds notifyOnRecovery}
    {jobName : String} (start : count c jobName = 0) {events : List Event}
    (untouched : ∀ e ∈ events, ¬ e.Touches jobName) :
    count (c.run events) jobName =
      EscalatingAlerter.streak jobName (events.filterMap Event.fed) := by
  have counted := (tally counts).view_run c untouched
  rw [show (tally counts).view c jobName = 0 from start] at counted
  exact counted

theorem ne_of_changed {job jobName : String} (other : some job ≠ some jobName) : jobName ≠ job :=
  fun same => other (congrArg some same.symm)

/-- Filing what is filed already. -/
theorem refiled {σ : Type} (filed : String → σ) (job jobName : String) :
    (if jobName = job then filed job else filed jobName) = filed jobName := by
  split
  · rename_i same
    rw [same]
  · rfl

/-! ## Each of the four counts -/

theorem registryCount_counts :
    CountsFailures (@registryCount minIntervalSeconds notifyOnRecovery) where
  fed := by
    intro c result finishedAt monotonic failedAt jobName
    show ((c.registry.markFinished finishedAt result.jobName result).getStatus
      jobName).consecutiveFailures = _
    rw [JobStatusRegistry.markFinished, JobStatusRegistry.getStatus_put]
    by_cases same : jobName = result.jobName
    · subst same
      rw [if_pos rfl, EscalatingAlerter.streakAfter_self, JobStatus.markFinished]
      split <;> rfl
    · rw [if_neg same, EscalatingAlerter.streakAfter_of_ne same]
      rfl
  called := by
    intro c op jobName other
    cases op with
    | registryGet job =>
        show ((c.registry.put job (c.registry.getStatus job)).getStatus jobName).consecutiveFailures = _
        rw [JobStatusRegistry.getStatus_put, refiled]
        rfl
    | markRunning job now =>
        show ((c.registry.markRunning now job).getStatus jobName).consecutiveFailures = _
        rw [JobStatusRegistry.markRunning, JobStatusRegistry.getStatus_put]
        split
        · rename_i same
          rw [same]
          rfl
        · rfl
    | markFinished job result now =>
        have ne : jobName ≠ job := ne_of_changed other
        show ((c.registry.markFinished now job result).getStatus jobName).consecutiveFailures = _
        rw [JobStatusRegistry.markFinished, JobStatusRegistry.getStatus_put, if_neg ne]
        rfl
    | registryReset job =>
        have ne : jobName ≠ job := ne_of_changed other
        show ((c.registry.reset job).getStatus jobName).consecutiveFailures = _
        rw [JobStatusRegistry.getStatus_reset, if_neg ne]
        rfl
    | _ => rfl

theorem notifierCount_counts :
    CountsFailures (@notifierCount minIntervalSeconds notifyOnRecovery) where
  fed := by
    intro c result finishedAt monotonic failedAt jobName
    show ((c.notifier.shouldNotify monotonic result).2.getState jobName).consecutiveFailures = _
    rw [Notifier.shouldNotify, Notifier.getState_put]
    by_cases same : jobName = result.jobName
    · subst same
      rw [if_pos rfl, EscalatingAlerter.streakAfter_self, Notifier.judge]
      dsimp only
      split
      · split <;> rfl
      · split <;> rfl
    · rw [if_neg same, EscalatingAlerter.streakAfter_of_ne same]
      rfl
  called := by
    intro c op jobName other
    cases op with
    | notifierCall e =>
        have ne : jobName ≠ e.jobName := ne_of_changed other
        have kept := (Notifier.keyed minIntervalSeconds notifyOnRecovery).view_eq c.notifier e jobName
        exact congrArg NotifierState.consecutiveFailures (kept.trans (if_neg ne))
    | notifierConsecutiveFailures job =>
        show ((c.notifier.put job (c.notifier.getState job)).getState jobName).consecutiveFailures = _
        rw [Notifier.getState_put, refiled]
        rfl
    | _ => rfl

theorem breakerCount_counts :
    CountsFailures (@breakerCount minIntervalSeconds notifyOnRecovery) where
  fed := by
    intro c result finishedAt monotonic failedAt jobName
    show ((reportToBreaker result failedAt c.breaker).get jobName).consecutiveFailures = _
    unfold reportToBreaker
    by_cases same : jobName = result.jobName
    · subst same
      rw [EscalatingAlerter.streakAfter_self]
      split
      · rw [CircuitBreaker.recordSuccess, CircuitBreaker.get_put, if_pos rfl]
      · rw [CircuitBreaker.get_recordFailure, if_pos rfl]
        rfl
    · rw [EscalatingAlerter.streakAfter_of_ne same]
      split
      · rw [CircuitBreaker.recordSuccess, CircuitBreaker.get_put, if_neg same]
        rfl
      · rw [CircuitBreaker.get_recordFailure, if_neg same]
        rfl
  called := by
    intro c op jobName other
    cases op with
    | breakerCall e =>
        show ((c.breaker.step e).get jobName).consecutiveFailures = _
        cases e with
        | recordFailure job now =>
            have ne : jobName ≠ job := ne_of_changed other
            rw [CircuitBreaker.step, CircuitBreaker.get_recordFailure, if_neg ne]
            rfl
        | recordSuccess job =>
            have ne : jobName ≠ job := ne_of_changed other
            rw [CircuitBreaker.step, CircuitBreaker.recordSuccess, CircuitBreaker.get_put, if_neg ne]
            rfl
        | isOpen job now attempt =>
            rw [CircuitBreaker.step, CircuitBreaker.isOpen_snd, CircuitBreaker.get_put, refiled]
            rfl
        | reset job =>
            have ne : jobName ≠ job := ne_of_changed other
            rw [CircuitBreaker.step, CircuitBreaker.get_reset, if_neg ne]
            rfl
    | breakerConsecutiveFailures job =>
        show ((c.breaker.put job (c.breaker.get job)).get jobName).consecutiveFailures = _
        rw [CircuitBreaker.get_put, refiled]
        rfl
    | _ => rfl

theorem trackerCount_counts :
    CountsFailures (@trackerCount minIntervalSeconds notifyOnRecovery) where
  fed := by
    intro c result finishedAt monotonic failedAt jobName
    show ((reportToTracker result c.tracker).getState jobName).consecutiveFailures = _
    unfold reportToTracker
    by_cases same : jobName = result.jobName
    · subst same
      rw [EscalatingAlerter.streakAfter_self]
      split
      · rw [EscalationTracker.recordSuccess, EscalationTracker.getState_put, if_pos rfl]
      · rw [EscalationTracker.recordFailure, EscalationTracker.getState_put, if_pos rfl]
        rfl
    · rw [EscalatingAlerter.streakAfter_of_ne same]
      split
      · rw [EscalationTracker.recordSuccess, EscalationTracker.getState_put, if_neg same]
        rfl
      · rw [EscalationTracker.recordFailure, EscalationTracker.getState_put, if_neg same]
        rfl
  called := by
    intro c op jobName other
    have read : ∀ job, ((c.tracker.put job (c.tracker.getState job)).getState
        jobName).consecutiveFailures = (c.tracker.getState jobName).consecutiveFailures := by
      intro job
      rw [EscalationTracker.getState_put, refiled]
    cases op with
    | recordFailure job =>
        have ne : jobName ≠ job := ne_of_changed other
        show ((c.tracker.recordFailure job).2.getState jobName).consecutiveFailures = _
        rw [EscalationTracker.recordFailure, EscalationTracker.getState_put, if_neg ne]
        rfl
    | recordSuccess job =>
        have ne : jobName ≠ job := ne_of_changed other
        show ((c.tracker.recordSuccess job).getState jobName).consecutiveFailures = _
        rw [EscalationTracker.recordSuccess, EscalationTracker.getState_put, if_neg ne]
        rfl
    | trackerConsecutiveFailures job => exact read job
    | currentLevel job => exact read job
    | escalated job => exact read job
    | _ => rfl

/-- **The four counters agree**: for a job whose own count nothing but the reports can
change, each is the number of its failed results since its last successful one. -/
theorem counters_agree (threshold recoveryWindow : Int) (policy : EscalationPolicy)
    {events : List Event} {jobName : String}
    (untouched : ∀ e ∈ events, ¬ e.Touches jobName) :
    let c : FailureCounters minIntervalSeconds notifyOnRecovery :=
      (new threshold recoveryWindow policy).run events
    let failures := EscalatingAlerter.streak jobName (events.filterMap Event.fed)
    c.registryCount jobName = failures ∧ c.notifierCount jobName = failures ∧
      c.breakerCount jobName = failures ∧ c.trackerCount jobName = failures :=
  ⟨registryCount_counts.run rfl untouched, notifierCount_counts.run rfl untouched,
    breakerCount_counts.run rfl untouched, trackerCount_counts.run rfl untouched⟩

/-- A run of `jobName` that ended with this exit code. -/
def ended (jobName : String) (exitCode : Int) : ExecutionResult where
  jobName := jobName
  exitCode := exitCode
  stdout := ""
  stderr := ""
  durationSeconds := 1
  startedAt := 0
  finishedAt := 1

/-- A success and two failures of `backup`, with reads in between and a reset for `sync`. -/
def mixed : List Event :=
  [.feed (ended "backup" 0) 0 0 0, .call (.markRunning "backup" 1),
    .feed (ended "backup" 1) 2 1 2, .call (.notifierCall (.reset "sync")),
    .call (.breakerCall (.isOpen "backup" 3 false)), .feed (ended "backup" 2) 4 2 4]

theorem mixed_agree :
    (∀ e ∈ mixed, ¬ e.Touches "backup") ∧
      EscalatingAlerter.streak "backup" (mixed.filterMap Event.fed) = 2 ∧
      let c : FailureCounters 3600 true := (new 2 300 {}).run mixed
      c.registryCount "backup" = 2 ∧ c.notifierCount "backup" = 2 ∧
        c.breakerCount "backup" = 2 ∧ c.trackerCount "backup" = 2 := by
  have untouched : ∀ e ∈ mixed, ¬ e.Touches "backup" := by
    simp [mixed, Event.Touches, Op.changed, Notifier.Event.jobName]
  exact ⟨untouched, by decide, counters_agree 2 300 {} untouched⟩

end FailureCounters

end Cronwatch.Alerts
