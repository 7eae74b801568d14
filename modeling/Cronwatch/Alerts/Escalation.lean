/-
# Alerts.Escalation -- levels for failures in a row, and alerts that name them

`EscalationTracker` counts the failures of a job in a row and gives the highest level of
the policy that the count reaches.  `EscalatingAlerter.send` hands every failed result
to the alerter inside, with the level in front of its job name; what the alerter inside
does with it is the parameter `Send`, on a state of its own.

`send_failed` says which result is handed over in any run: the level is that of the
failures since the last success of the job (`streak`).
-/
import Cronwatch.Jobs.Execution
import Cronwatch.Theory.Dict
import Mathlib.Data.List.Induction
import Mathlib.Data.List.Sort

namespace Cronwatch.Alerts

set_option autoImplicit false

open Cronwatch.Theory Cronwatch.Runtime Cronwatch.Jobs

structure EscalationLevel where
  name : String
  afterFailures : Int
deriving DecidableEq

structure EscalationPolicy where
  levels : List EscalationLevel := []
  defaultLevel : String := "warning"

/-- The highest level reached; of levels with one threshold the one listed last. -/
def EscalationPolicy.levelFor (consecutiveFailures : Int) (policy : EscalationPolicy) : String :=
  (policy.levels.insertionSort fun l l' => l.afterFailures ≤ l'.afterFailures).foldl
    (fun current l => if l.afterFailures ≤ consecutiveFailures then l.name else current)
    policy.defaultLevel

example : EscalationPolicy.levelFor 4 { levels := [⟨"critical", 3⟩, ⟨"warning", 1⟩] } = "critical" := by
  decide

structure EscalationState where
  consecutiveFailures : Nat := 0
  lastLevel : Option String := none
deriving DecidableEq

structure EscalationTracker where
  policy : EscalationPolicy
  states : Dict String EscalationState := .empty

namespace EscalationTracker

/-- The state `_get(job_name)` finds or creates. -/
def getState (tracker : EscalationTracker) (jobName : String) : EscalationState :=
  (tracker.states.get? jobName).getD {}

def put (jobName : String) (state : EscalationState) (tracker : EscalationTracker) :
    EscalationTracker :=
  { tracker with states := tracker.states.set jobName state }

/-- The level for one failure more. -/
def nextLevel (jobName : String) (tracker : EscalationTracker) : String :=
  tracker.policy.levelFor ((tracker.getState jobName).consecutiveFailures + 1 : Nat)

def recordFailure (jobName : String) (tracker : EscalationTracker) : String × EscalationTracker :=
  let level := tracker.nextLevel jobName
  (level, tracker.put jobName
    { consecutiveFailures := (tracker.getState jobName).consecutiveFailures + 1,
      lastLevel := some level })

def recordSuccess (jobName : String) (tracker : EscalationTracker) : EscalationTracker :=
  tracker.put jobName {}

def consecutiveFailures (jobName : String) (tracker : EscalationTracker) :
    Nat × EscalationTracker :=
  ((tracker.getState jobName).consecutiveFailures,
    tracker.put jobName (tracker.getState jobName))

def currentLevel (jobName : String) (tracker : EscalationTracker) :
    Option String × EscalationTracker :=
  ((tracker.getState jobName).lastLevel, tracker.put jobName (tracker.getState jobName))

/-- The job has moved beyond the default level. -/
def escalated (jobName : String) (tracker : EscalationTracker) : Bool × EscalationTracker :=
  let (lvl, tracker) := tracker.currentLevel jobName
  (decide (lvl.isSome ∧ lvl ≠ some tracker.policy.defaultLevel), tracker)

@[simp] theorem getState_put (jobName : String) (state : EscalationState)
    (tracker : EscalationTracker) (job : String) :
    (tracker.put jobName state).getState job =
      if job = jobName then state else tracker.getState job := by
  simp only [getState, put, Dict.get?_set]
  split <;> rfl

end EscalationTracker

/-- What the alerter inside does with a result, and with its own state. -/
abbrev Send (σ : Type) := ExecutionResult → σ → Except PyException Unit × σ

structure EscalatingAlerter (σ : Type) where
  tracker : EscalationTracker
  inner : σ

namespace EscalatingAlerter

/-- `upper` is `str.upper`. -/
def decorated (upper : String → String) (level jobName : String) : String :=
  "[" ++ upper level ++ "] " ++ jobName

def annotate (upper : String → String) (result : ExecutionResult) (level : String) :
    ExecutionResult :=
  { result with jobName := decorated upper level result.jobName }

section Send

variable {σ : Type} (upper : String → String) (inner : Send σ)

def send (result : ExecutionResult) (a : EscalatingAlerter σ) :
    Except PyException Unit × EscalatingAlerter σ :=
  if result.success then (.ok (), { a with tracker := a.tracker.recordSuccess result.jobName })
  else
    let (level, tracker) := a.tracker.recordFailure result.jobName
    let (outcome, state) := inner (annotate upper result level) a.inner
    (outcome, { tracker, inner := state })

/-- Any number of `send` calls; what one of them raises does not stop the next. -/
def sends (results : List ExecutionResult) (a : EscalatingAlerter σ) : EscalatingAlerter σ :=
  results.foldl (fun a result => (a.send upper inner result).2) a

/-- A new alerter around one in this state. -/
def new (policy : EscalationPolicy) (state : σ) : EscalatingAlerter σ where
  tracker := { policy }
  inner := state

theorem sends_append_single (before : List ExecutionResult) (result : ExecutionResult)
    (a : EscalatingAlerter σ) :
    a.sends upper inner (before ++ [result]) =
      ((a.sends upper inner before).send upper inner result).2 := by
  rw [sends, List.foldl_append]
  rfl

end Send

/-! ## The level that is named -/

/-- The failures of the job in a row, given those before a result. -/
def streakAfter (jobName : String) (streak : Nat) (result : ExecutionResult) : Nat :=
  if result.jobName = jobName then if result.success then 0 else streak + 1 else streak

theorem streakAfter_self (result : ExecutionResult) (n : Nat) :
    streakAfter result.jobName n result = if result.success then 0 else n + 1 :=
  if_pos rfl

theorem streakAfter_of_ne {jobName : String} {result : ExecutionResult}
    (other : jobName ≠ result.jobName) (n : Nat) : streakAfter jobName n result = n :=
  if_neg other.symm

/-- The failures of the job since its last success. -/
def streak (jobName : String) (results : List ExecutionResult) : Nat :=
  results.foldl (streakAfter jobName) 0

theorem streak_append_single (jobName : String) (results : List ExecutionResult)
    (result : ExecutionResult) :
    streak jobName (results ++ [result]) = streakAfter jobName (streak jobName results) result := by
  rw [streak, List.foldl_append]
  rfl

section Run

variable {σ : Type} {upper : String → String} {inner : Send σ}

theorem send_of_success {result : ExecutionResult} (succeeded : result.success = true)
    (a : EscalatingAlerter σ) : a.send upper inner result =
      (.ok (), { a with tracker := a.tracker.recordSuccess result.jobName }) := by
  rw [send, if_pos succeeded]

theorem send_of_failure {result : ExecutionResult} (failed : result.success = false)
    (a : EscalatingAlerter σ) : a.send upper inner result =
      ((inner (annotate upper result (a.tracker.nextLevel result.jobName)) a.inner).1,
        { tracker := (a.tracker.recordFailure result.jobName).2,
          inner := (inner (annotate upper result (a.tracker.nextLevel result.jobName))
            a.inner).2 }) := by
  rw [send, if_neg (Bool.eq_false_iff.mp failed)]
  rfl

/-- **One result** moves the count of its job, and no other. -/
theorem send_tracker (upper : String → String) (inner : Send σ) (result : ExecutionResult)
    (a : EscalatingAlerter σ) (jobName : String) :
    (a.send upper inner result).2.tracker.policy = a.tracker.policy ∧
      ((a.send upper inner result).2.tracker.getState jobName).consecutiveFailures =
        streakAfter jobName (a.tracker.getState jobName).consecutiveFailures result := by
  unfold streakAfter
  cases succeeded : result.success with
  | true =>
      rw [send_of_success succeeded]
      refine ⟨rfl, ?_⟩
      by_cases same : result.jobName = jobName
      · simp [EscalationTracker.recordSuccess, same]
      · have other : ¬ jobName = result.jobName := fun eq => same eq.symm
        simp [EscalationTracker.recordSuccess, same, other]
  | false =>
      rw [send_of_failure succeeded]
      refine ⟨rfl, ?_⟩
      by_cases same : result.jobName = jobName
      · simp [EscalationTracker.recordFailure, same]
      · have other : ¬ jobName = result.jobName := fun eq => same eq.symm
        simp [EscalationTracker.recordFailure, same, other]

/-- The tracker of a run counts streaks. -/
theorem sends_tracker (upper : String → String) (inner : Send σ) (policy : EscalationPolicy)
    (state : σ) (results : List ExecutionResult) (jobName : String) :
    ((new policy state).sends upper inner results).tracker.policy = policy ∧
      (((new policy state).sends upper inner results).tracker.getState
        jobName).consecutiveFailures = streak jobName results := by
  induction results using List.reverseRecOn with
  | nil => exact ⟨rfl, rfl⟩
  | append_singleton before result ih =>
      obtain ⟨kept, counted⟩ := send_tracker upper inner result
        ((new policy state).sends upper inner before) jobName
      rw [sends_append_single, streak_append_single, kept, counted, ih.1, ih.2]
      exact ⟨rfl, rfl⟩

/-- **What is handed over** for a failed result: the result with the level of its streak. -/
theorem send_failed (policy : EscalationPolicy) (state : σ) (before : List ExecutionResult)
    {result : ExecutionResult} (failed : result.success = false) :
    (((new policy state).sends upper inner before).send upper inner result).2.inner =
      (inner (annotate upper result (policy.levelFor (streak result.jobName before + 1 : Nat)))
        ((new policy state).sends upper inner before).inner).2 := by
  obtain ⟨kept, counted⟩ := sends_tracker upper inner policy state before
    result.jobName
  rw [send_of_failure failed, EscalationTracker.nextLevel, kept, counted]

end Run

end EscalatingAlerter

end Cronwatch.Alerts
