/-
# Jobs.CircuitBreaker -- open after repeated failures, half open after the window

`CircuitBreaker` counts consecutive failures per job and remembers when the count
reached the threshold.  Its meaning is a function of the calls alone:
`failuresSince job events` lists the failures of the job since its last success or
reset, and `get_run` says that the breaker holds their number and the time of the
`threshold`-th of them.

After the recovery window every `is_open` answers `False` until the next success or
reset: a failed retry does not close the door again.  So the law of a single retry per
window (`HalfOpen`) holds of a run exactly when the caller itself leaves the window
between its own requests (`halfOpen_iff`); `retry_storm` is a run in which it does not.
-/
import Cronwatch.Runtime.Python
import Cronwatch.Theory.Dict
import Mathlib.Data.List.DropRight
import Mathlib.Tactic.Push

namespace Cronwatch.Jobs

set_option autoImplicit false

open Cronwatch.Theory Cronwatch.Runtime

structure BreakerState where
  consecutiveFailures : Nat := 0
  openSince : Option DateTime := none
deriving DecidableEq

def BreakerState.isOpen (state : BreakerState) : Bool := state.openSince.isSome

structure CircuitBreaker where
  threshold : Int := 3
  recoveryWindow : Int := 300
  state : Dict String BreakerState := .empty

namespace CircuitBreaker

/-- The state `_get(job_name)` finds or creates. -/
def get (b : CircuitBreaker) (jobName : String) : BreakerState :=
  (b.state.get? jobName).getD {}

def put (b : CircuitBreaker) (jobName : String) (state : BreakerState) : CircuitBreaker :=
  { b with state := b.state.set jobName state }

def recordFailure (now : DateTime) (jobName : String) (b : CircuitBreaker) : CircuitBreaker :=
  let state := { b.get jobName with
    consecutiveFailures := (b.get jobName).consecutiveFailures + 1 }
  if (state.consecutiveFailures : Int) ≥ b.threshold ∧ ¬ state.isOpen then
    b.put jobName { state with openSince := some now }
  else b.put jobName state

def recordSuccess (jobName : String) (b : CircuitBreaker) : CircuitBreaker :=
  b.put jobName { consecutiveFailures := 0, openSince := none }

def isOpen (now : DateTime) (jobName : String) (b : CircuitBreaker) : Bool × CircuitBreaker :=
  let state := b.get jobName
  let b := b.put jobName state
  match state.openSince with
  | none => (false, b)
  | some openSince =>
      let elapsed := now - openSince
      if elapsed ≥ seconds b.recoveryWindow then (false, b) else (true, b)

def reset (jobName : String) (b : CircuitBreaker) : CircuitBreaker :=
  { b with state := b.state.erase jobName }

def consecutiveFailures (jobName : String) (b : CircuitBreaker) : Nat × CircuitBreaker :=
  ((b.get jobName).consecutiveFailures, b.put jobName (b.get jobName))

/-- One call on the breaker.  `attempt` marks an `is_open` whose caller runs the job
when the answer is `False`. -/
inductive Event where
  | recordFailure (jobName : String) (now : DateTime)
  | recordSuccess (jobName : String)
  | isOpen (jobName : String) (now : DateTime) (attempt : Bool)
  | reset (jobName : String)
deriving DecidableEq

def step (b : CircuitBreaker) : Event → CircuitBreaker
  | .recordFailure job now => b.recordFailure now job
  | .recordSuccess job => b.recordSuccess job
  | .isOpen job now _ => (b.isOpen now job).2
  | .reset job => b.reset job

def run (b : CircuitBreaker) (events : List Event) : CircuitBreaker := events.foldl step b

def new (threshold recoveryWindow : Int) : CircuitBreaker := { threshold, recoveryWindow }

/-! ## What the calls so far mean -/

/-- The failures of the job since its last success or reset, given those before `e`. -/
def failuresAfter (jobName : String) (failures : List DateTime) : Event → List DateTime
  | .recordFailure job now => if job = jobName then failures ++ [now] else failures
  | .recordSuccess job | .reset job => if job = jobName then [] else failures
  | .isOpen _ _ _ => failures

def failuresSince (jobName : String) (events : List Event) : List DateTime :=
  events.foldl (failuresAfter jobName) []

/-- When the number of failures since the last success or reset reached the threshold. -/
def opening (threshold : Int) (jobName : String) (events : List Event) : Option DateTime :=
  (failuresSince jobName events)[(threshold - 1).toNat]?

/-- The breaker state that belongs to a list of failures. -/
def stateOf (threshold : Int) (failures : List DateTime) : BreakerState where
  consecutiveFailures := failures.length
  openSince := failures[(threshold - 1).toNat]?

@[simp] theorem get_put (b : CircuitBreaker) (job : String) (state : BreakerState)
    (job' : String) : (b.put job state).get job' = if job' = job then state else b.get job' := by
  simp only [get, put, Dict.get?_set]
  split <;> rfl

@[simp] theorem get_reset (b : CircuitBreaker) (job job' : String) :
    (b.reset job).get job' = if job' = job then {} else b.get job' := by
  simp only [get, reset, Dict.get?_erase]
  split <;> rfl

theorem isOpen_snd (b : CircuitBreaker) (now : DateTime) (job : String) :
    (b.isOpen now job).2 = b.put job (b.get job) := by
  unfold isOpen
  dsimp only
  split
  · rfl
  · split <;> rfl

/-- No call changes the configuration. -/
theorem step_config (b : CircuitBreaker) (e : Event) :
    (b.step e).threshold = b.threshold ∧ (b.step e).recoveryWindow = b.recoveryWindow := by
  cases e with
  | recordFailure job now =>
      rw [step, recordFailure]
      dsimp only
      split <;> exact ⟨rfl, rfl⟩
  | recordSuccess job => exact ⟨rfl, rfl⟩
  | isOpen job now attempt =>
      rw [step, isOpen_snd]
      exact ⟨rfl, rfl⟩
  | reset job => exact ⟨rfl, rfl⟩

/-- The state after one more failure. -/
def BreakerState.fail (threshold : Int) (now : DateTime) (state : BreakerState) : BreakerState where
  consecutiveFailures := state.consecutiveFailures + 1
  openSince :=
    if ((state.consecutiveFailures + 1 : Nat) : Int) ≥ threshold ∧ ¬ state.isOpen then some now
    else state.openSince

theorem get_recordFailure (b : CircuitBreaker) (now : DateTime) (job job' : String) :
    (b.recordFailure now job).get job' =
      if job' = job then BreakerState.fail b.threshold now (b.get job) else b.get job' := by
  unfold recordFailure BreakerState.fail
  dsimp only
  split
  · rename_i opens
    rw [get_put, if_pos (show _ ∧ ¬ (b.get job).isOpen from opens)]
  · rename_i stays
    rw [get_put, if_neg (show ¬ (_ ∧ ¬ (b.get job).isOpen) from stays)]

theorem isOpen_stateOf (threshold : Int) (failures : List DateTime) :
    (stateOf threshold failures).isOpen ↔ (threshold - 1).toNat < failures.length := by
  simp [BreakerState.isOpen, stateOf]

/-- One more failure opens the breaker exactly when it is the `threshold`-th. -/
theorem stateOf_append (threshold : Int) (failures : List DateTime) (now : DateTime) :
    stateOf threshold (failures ++ [now]) =
      BreakerState.fail threshold now (stateOf threshold failures) := by
  have opens : (((stateOf threshold failures).consecutiveFailures + 1 : Nat) : Int) ≥ threshold ∧
      ¬ (stateOf threshold failures).isOpen ↔ (threshold - 1).toNat = failures.length := by
    rw [isOpen_stateOf]
    show ((failures.length + 1 : Nat) : Int) ≥ threshold ∧ _ ↔ _
    omega
  by_cases last : (threshold - 1).toNat = failures.length
  · rw [BreakerState.fail, if_pos (opens.mpr last)]
    simp [stateOf, last]
  · have same : (failures ++ [now])[(threshold - 1).toNat]? = failures[(threshold - 1).toNat]? := by
      rcases Nat.lt_or_gt_of_ne last with inside | outside
      · exact List.getElem?_append_left inside
      · rw [List.getElem?_eq_none outside.le, List.getElem?_eq_none]
        rw [List.length_append, List.length_singleton]
        exact outside
    rw [BreakerState.fail, if_neg (mt opens.mp last)]
    simp only [stateOf, same, List.length_append, List.length_singleton]

/-- **One call** on a breaker that holds the state of `failures`. -/
theorem get_step {b : CircuitBreaker} {failures : List DateTime} {job : String}
    (held : b.get job = stateOf b.threshold failures) (e : Event) :
    (b.step e).get job = stateOf b.threshold (failuresAfter job failures e) := by
  cases e with
  | recordFailure job' now =>
      by_cases same : job' = job
      · subst same
        rw [step, get_recordFailure, held, failuresAfter, if_pos rfl, if_pos rfl]
        exact (stateOf_append b.threshold failures now).symm
      · have other : ¬ job = job' := fun eq => same eq.symm
        rw [step, get_recordFailure, failuresAfter, if_neg same, if_neg other, held]
  | recordSuccess job' =>
      by_cases same : job = job'
      · subst same
        simp [step, recordSuccess, failuresAfter, stateOf]
      · have other : ¬ job' = job := fun eq => same eq.symm
        simp [step, recordSuccess, failuresAfter, same, other, held]
  | isOpen job' now attempt =>
      rw [step, isOpen_snd, get_put, failuresAfter]
      split
      · rename_i same
        rw [← same, held]
      · exact held
  | reset job' =>
      by_cases same : job = job'
      · subst same
        simp [step, failuresAfter, stateOf]
      · have other : ¬ job' = job := fun eq => same eq.symm
        simp [step, failuresAfter, same, other, held]

theorem run_config (b : CircuitBreaker) (events : List Event) :
    (b.run events).threshold = b.threshold ∧
      (b.run events).recoveryWindow = b.recoveryWindow := by
  induction events generalizing b with
  | nil => exact ⟨rfl, rfl⟩
  | cons e rest ih =>
      obtain ⟨threshold, recoveryWindow⟩ := step_config b e
      obtain ⟨thresholdRest, recoveryWindowRest⟩ := ih (b.step e)
      exact ⟨thresholdRest.trans threshold, recoveryWindowRest.trans recoveryWindow⟩

/-- **Any number of calls**, from a breaker that holds the state of `failures`. -/
theorem get_run_of {b : CircuitBreaker} {failures : List DateTime} {job : String}
    (held : b.get job = stateOf b.threshold failures) (events : List Event) :
    (b.run events).get job = stateOf b.threshold (events.foldl (failuresAfter job) failures) := by
  induction events generalizing b failures with
  | nil => exact held
  | cons e rest ih =>
      have next := get_step held e
      rw [← (step_config b e).1] at next ⊢
      exact ih next

theorem get_run (threshold recoveryWindow : Int) (events : List Event) (job : String) :
    ((new threshold recoveryWindow).run events).get job =
      stateOf threshold (failuresSince job events) :=
  @get_run_of (new threshold recoveryWindow) [] job rfl events

/-- `is_open` answers `False` exactly when the breaker has not opened or the recovery
window is over. -/
theorem isOpen_eq_false_iff (b : CircuitBreaker) (now : DateTime) (job : String) :
    (b.isOpen now job).1 = false ↔
      ∀ since, (b.get job).openSince = some since → seconds b.recoveryWindow ≤ now - since := by
  unfold isOpen
  dsimp only
  split
  · rename_i closed
    simp [closed]
  · rename_i since opened
    rw [opened]
    by_cases passed : now - since ≥ seconds b.recoveryWindow
    · rw [if_pos (show now - since ≥ seconds (b.put job (b.get job)).recoveryWindow from passed)]
      simpa using passed
    · rw [if_neg (show ¬ now - since ≥ seconds (b.put job (b.get job)).recoveryWindow from passed)]
      simpa using passed

/-! ## One retry per window -/

/-- The clock reading of a call that takes one. -/
def Event.time? : Event → Option DateTime
  | .recordFailure _ now | .isOpen _ now _ => some now
  | .recordSuccess _ | .reset _ => none

/-- The clock never goes back. -/
def Nondecreasing (events : List Event) : Prop :=
  (events.filterMap Event.time?).Pairwise (· ≤ ·)

/-- The call closes the breaker of the job. -/
def Event.closes (jobName : String) : Event → Bool
  | .recordSuccess job | .reset job => job = jobName
  | .recordFailure _ _ | .isOpen _ _ _ => false

/-- **The half-open law** of a run: once the breaker of the job has opened and until its
next success or reset, attempts come at least the window after the opening and at
least the window after each other. -/
structure HalfOpen (b : CircuitBreaker) (jobName : String) (events : List Event) : Prop where
  afterOpening : ∀ before now after since, events = before ++ .isOpen jobName now true :: after →
    ((b.run before).get jobName).openSince = some since →
    ((b.run before).isOpen now jobName).1 = false → seconds b.recoveryWindow ≤ now - since
  apart : ∀ before first middle second after,
    events = before ++ .isOpen jobName first true ::
      (middle ++ .isOpen jobName second true :: after) →
    ((b.run before).get jobName).isOpen → (∀ e ∈ middle, e.closes jobName = false) →
    ((b.run before).isOpen first jobName).1 = false →
    ((b.run (before ++ .isOpen jobName first true :: middle)).isOpen second jobName).1 = false →
    seconds b.recoveryWindow ≤ second - first

/-- The caller's requests: within one opening, after the window, it leaves the window
between them. -/
def RequestsApart (threshold recoveryWindow : Int) (jobName : String) (events : List Event) : Prop :=
  ∀ before first middle second after since,
    events = before ++ .isOpen jobName first true ::
      (middle ++ .isOpen jobName second true :: after) →
    opening threshold jobName before = some since → seconds recoveryWindow ≤ first - since →
    (∀ e ∈ middle, e.closes jobName = false) → seconds recoveryWindow ≤ second - first

theorem failuresAfter_prefix {jobName : String} {e : Event} (stays : e.closes jobName = false)
    (failures : List DateTime) : failures <+: failuresAfter jobName failures e := by
  cases e with
  | recordFailure job now =>
      rw [failuresAfter]
      split
      · exact List.prefix_append failures [now]
      · exact List.prefix_rfl
  | recordSuccess job =>
      have other : ¬ job = jobName := by simpa [Event.closes] using stays
      rw [failuresAfter, if_neg other]
  | isOpen job now attempt => exact List.prefix_rfl
  | reset job =>
      have other : ¬ job = jobName := by simpa [Event.closes] using stays
      rw [failuresAfter, if_neg other]

/-- Without a closing call the opening stays. -/
theorem opening_append {threshold : Int} {jobName : String} {before middle : List Event}
    {since : DateTime} (opened : opening threshold jobName before = some since)
    (stays : ∀ e ∈ middle, e.closes jobName = false) :
    opening threshold jobName (before ++ middle) = some since := by
  have grows : failuresSince jobName before <+: failuresSince jobName (before ++ middle) := by
    rw [failuresSince, failuresSince, List.foldl_append]
    generalize before.foldl (failuresAfter jobName) [] = failures
    induction middle generalizing failures with
    | nil => exact List.prefix_rfl
    | cons e rest ih =>
        have head := failuresAfter_prefix (stays e List.mem_cons_self) failures
        exact head.trans (ih (fun e' member => stays e' (List.mem_cons_of_mem e member)) _)
  obtain ⟨tail, same⟩ := grows
  rw [opening, ← same]
  obtain ⟨inside, value⟩ := List.getElem?_eq_some_iff.mp opened
  rw [List.getElem?_append_left inside]
  exact opened

theorem Nondecreasing.le {before middle after : List Event} {job job' : String} {t t' : DateTime}
    {go go' : Bool} (clock : Nondecreasing
      (before ++ .isOpen job t go :: (middle ++ .isOpen job' t' go' :: after))) : t ≤ t' := by
  unfold Nondecreasing at clock
  simp only [List.filterMap_append, List.filterMap_cons, Event.time?] at clock
  have tail := (List.pairwise_append.mp clock).2.1
  exact (List.pairwise_cons.mp tail).1 t' (by simp)

/-- **When the half-open law holds.**  The breaker refuses every request inside the
window and grants every one after it, so the law holds exactly of the runs in which
the caller leaves the window between its own requests. -/
theorem halfOpen_iff (threshold recoveryWindow : Int) (jobName : String) {events : List Event}
    (clock : Nondecreasing events) :
    HalfOpen (new threshold recoveryWindow) jobName events ↔
      RequestsApart threshold recoveryWindow jobName events := by
  have opened : ∀ before since, ((new threshold recoveryWindow).run before |>.get jobName).openSince =
      some since ↔ opening threshold jobName before = some since := by
    intro before since
    rw [get_run]
    rfl
  have granted : ∀ before now since, opening threshold jobName before = some since →
      ((((new threshold recoveryWindow).run before).isOpen now jobName).1 = false ↔
        seconds recoveryWindow ≤ now - since) := by
    intro before now since held
    rw [isOpen_eq_false_iff, (run_config _ before).2, (opened before since).mpr held]
    simp [new]
  constructor
  · intro law before first middle second after since split held passed stays
    have le : first ≤ second := by
      rw [split] at clock
      exact clock.le
    have later : opening threshold jobName (before ++ .isOpen jobName first true :: middle) =
        some since := opening_append held (List.forall_mem_cons.mpr ⟨rfl, stays⟩)
    refine law.apart before first middle second after split ?_ stays ?_ ?_
    · rw [BreakerState.isOpen, (opened before since).mpr held]
      rfl
    · exact (granted before first since held).mpr passed
    · exact (granted _ second since later).mpr (by omega)
  · intro apart
    refine ⟨fun before now after since _ held answer => ?_, ?_⟩
    · exact (granted before now since ((opened before since).mp held)).mp answer
    · intro before first middle second after split isOpen stays answer _
      obtain ⟨since, held⟩ := Option.isSome_iff_exists.mp isOpen
      have held := (opened before since).mp held
      exact apart before first middle second after since split held
        ((granted before first since held).mp answer) stays

/-- A failure opens the breaker, and the retry after the window succeeds. -/
def goodRetry : List Event :=
  [.isOpen "backup" 0 true, .recordFailure "backup" (seconds 1),
    .isOpen "backup" (seconds 301) true, .recordSuccess "backup"]

theorem goodRetry_halfOpen : HalfOpen (new 1 300) "backup" goodRetry := by
  refine (halfOpen_iff 1 300 "backup" (by unfold Nondecreasing; decide)).mpr ?_
  intro before first middle second after since split opened passed stays
  -- only the first request has another one after it, and nothing has opened before it
  rcases before with _ | ⟨e₀, _ | ⟨e₁, _ | ⟨e₂, before⟩⟩⟩
  · cases opened
  · simp [goodRetry] at split
  · rcases middle with _ | ⟨e, middle⟩ <;> simp [goodRetry] at split
  · rcases before with _ | ⟨e₃, before⟩ <;> simp [goodRetry] at split

/-- A job is run only after `is_open` answered `False`, one attempt at a time, and the
outcome of each attempt is reported; `running` says that one is under way. -/
def disciplined (jobName : String) : Bool → CircuitBreaker → List Event → Bool
  | running, _, [] => !running
  | running, b, e :: rest =>
      match e with
      | .isOpen job now true =>
          if job = jobName ∧ (b.isOpen now job).1 = false then
            !running && disciplined jobName true (b.step e) rest
          else disciplined jobName running (b.step e) rest
      | .recordFailure job _ | .recordSuccess job =>
          if job = jobName then running && disciplined jobName false (b.step e) rest
          else disciplined jobName running (b.step e) rest
      | _ => disciplined jobName running (b.step e) rest

/-- Every retry after the window fails, and the next one starts a second later. -/
def retryStorm : List Event :=
  [.isOpen "backup" 0 true, .recordFailure "backup" (seconds 1),
    .isOpen "backup" (seconds 301) true, .recordFailure "backup" (seconds 302),
    .isOpen "backup" (seconds 303) true, .recordFailure "backup" (seconds 304),
    .isOpen "backup" (seconds 305) true, .recordFailure "backup" (seconds 306)]

theorem retry_storm : Nondecreasing retryStorm ∧
    disciplined "backup" false (new 1 300) retryStorm = true ∧
    ¬ HalfOpen (new 1 300) "backup" retryStorm := by
  refine ⟨by unfold Nondecreasing; decide, by decide, fun law => ?_⟩
  have apart := law.apart
    [.isOpen "backup" 0 true, .recordFailure "backup" (seconds 1),
      .isOpen "backup" (seconds 301) true, .recordFailure "backup" (seconds 302)]
    (seconds 303) [.recordFailure "backup" (seconds 304)] (seconds 305)
    [.recordFailure "backup" (seconds 306)] rfl (by decide) (by decide) (by decide) (by decide)
  revert apart
  decide

/-! ## What `is_open` answers, from the calls alone -/

def Event.jobName : Event → String
  | .recordFailure job _ | .recordSuccess job | .isOpen job _ _ | .reset job => job

/-- The clock reading of a failure of the job. -/
def Event.failure? (jobName : String) : Event → Option DateTime
  | .recordFailure job now => if job = jobName then some now else none
  | _ => none

/-- The failures of the job since its last success or reset: those in the longest
closing part of the run that has neither. -/
def streak (jobName : String) (events : List Event) : List DateTime :=
  (events.rtakeWhile fun e => !e.closes jobName).filterMap (Event.failure? jobName)

theorem failuresAfter_of_stays {jobName : String} {e : Event} (stays : e.closes jobName = false)
    (failures : List DateTime) : failuresAfter jobName failures e =
      failures ++ [e].filterMap (Event.failure? jobName) := by
  cases e with
  | recordFailure job now =>
      by_cases same : job = jobName <;> simp [failuresAfter, Event.failure?, same]
  | recordSuccess job =>
      have other : ¬ job = jobName := by simpa [Event.closes] using stays
      simp [failuresAfter, Event.failure?, other]
  | isOpen job now attempt => simp [failuresAfter, Event.failure?]
  | reset job =>
      have other : ¬ job = jobName := by simpa [Event.closes] using stays
      simp [failuresAfter, Event.failure?, other]

theorem failuresAfter_of_closes {jobName : String} {e : Event} (closes : e.closes jobName = true)
    (failures : List DateTime) : failuresAfter jobName failures e = [] := by
  cases e with
  | recordFailure job now => cases closes
  | recordSuccess job =>
      have same : job = jobName := by simpa [Event.closes] using closes
      rw [failuresAfter, if_pos same]
  | isOpen job now attempt => cases closes
  | reset job =>
      have same : job = jobName := by simpa [Event.closes] using closes
      rw [failuresAfter, if_pos same]

/-- The list kept call by call is the one read off the whole run. -/
theorem failuresSince_eq_streak (jobName : String) (events : List Event) :
    failuresSince jobName events = streak jobName events := by
  induction events using List.reverseRecOn with
  | nil => rfl
  | append_singleton before e ih =>
      rw [failuresSince, List.foldl_append, ← failuresSince, ih]
      show failuresAfter jobName (streak jobName before) e = _
      rw [streak, streak]
      cases closes : e.closes jobName with
      | true =>
          rw [failuresAfter_of_closes closes, List.rtakeWhile_concat_neg _ _ _ (by simp [closes])]
          rfl
      | false =>
          rw [failuresAfter_of_stays closes, List.rtakeWhile_concat_pos _ _ _ (by simp [closes]),
            List.filterMap_append]

/-- A call about another job leaves the failures of this one. -/
theorem failuresAfter_of_other {jobName : String} {e : Event} (other : e.jobName ≠ jobName)
    (failures : List DateTime) : failuresAfter jobName failures e = failures := by
  cases e <;> simp_all [failuresAfter, Event.jobName]

theorem isOpen_eq_true_iff (b : CircuitBreaker) (now : DateTime) (job : String) :
    (b.isOpen now job).1 = true ↔
      ∃ since, (b.get job).openSince = some since ∧ now - since < seconds b.recoveryWindow := by
  rw [← Bool.not_eq_false, isOpen_eq_false_iff]
  push Not
  rfl

/-- **What `is_open` answers**: `True` exactly when the job has failed at least
`threshold` times since its last success or reset and the `threshold`-th of these
failures is less than the recovery window ago.  A call about another job changes
nothing. -/
theorem isOpen_iff_streak {threshold : Int} (positive : 1 ≤ threshold) (recoveryWindow : Int)
    (events : List Event) (now : DateTime) (jobName : String) :
    ((((new threshold recoveryWindow).run events).isOpen now jobName).1 = true ↔
        threshold ≤ (streak jobName events).length ∧
          ∃ opened, (streak jobName events)[threshold.toNat - 1]? = some opened ∧
            now - opened < seconds recoveryWindow) ∧
      ∀ before e after, events = before ++ e :: after → e.jobName ≠ jobName →
        (((new threshold recoveryWindow).run events).isOpen now jobName).1 =
          (((new threshold recoveryWindow).run (before ++ after)).isOpen now jobName).1 := by
  have answer : ∀ events, (((new threshold recoveryWindow).run events).isOpen now jobName).1 = true ↔
      ∃ opened, (failuresSince jobName events)[(threshold - 1).toNat]? = some opened ∧
        now - opened < seconds recoveryWindow := by
    intro events
    rw [isOpen_eq_true_iff, get_run, (run_config _ events).2]
    rfl
  refine ⟨?_, ?_⟩
  · have position : (threshold - 1).toNat = threshold.toNat - 1 := by omega
    rw [answer, failuresSince_eq_streak, position]
    constructor
    · rintro ⟨opened, found, recent⟩
      obtain ⟨inside, -⟩ := List.getElem?_eq_some_iff.mp found
      exact ⟨by omega, opened, found, recent⟩
    · rintro ⟨-, found⟩
      exact found
  · rintro before e after rfl other
    rw [Bool.eq_iff_iff, answer, answer]
    simp only [failuresSince, List.foldl_append, List.foldl_cons, failuresAfter_of_other other]

/-- Two failures in a row, seen from inside and from the end of the window, with a
success of another job between them. -/
theorem isOpen_after_two_failures :
    (((new 2 300).run [.recordFailure "backup" 0, .recordSuccess "report",
      .recordFailure "backup" (seconds 10)]).isOpen (seconds 309) "backup").1 = true ∧
    ¬ (((new 2 300).run [.recordFailure "backup" 0, .recordSuccess "report",
      .recordFailure "backup" (seconds 10)]).isOpen (seconds 310) "backup").1 = true := by
  constructor
  · exact (isOpen_iff_streak (by decide) 300 _ _ _).1.mpr
      ⟨by decide, seconds 10, by decide, by decide⟩
  · intro isOpen
    obtain ⟨-, opened, found, recent⟩ := (isOpen_iff_streak (by decide) 300 _ _ _).1.mp isOpen
    cases found
    revert recent
    decide

end CircuitBreaker

end Cronwatch.Jobs
