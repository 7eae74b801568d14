/-
# Alerts.RateLimit -- a sliding window of alerts per job

`RateLimiter` keeps one queue of time stamps per job and prunes it at its head on
every call.  `RateLimitedAlerter.send` reads the monotonic clock again in each call it
makes, so one `send` may see two or three readings; `clock n` is the `n`-th of them
and `reads` counts them.  The inner alerter is code handed in: it may raise, and what
it does may depend on every call before.  `calls` is that history.

`sends_bounded` is about the whole history of recorded alerts, which the limiter does
not keep: no closed interval of the window's length holds more than `max_alerts` of
one job, and an alert is forwarded exactly when its own window has room.
-/
import Cronwatch.Jobs.Execution
import Cronwatch.Runtime.Python
import Cronwatch.Theory.Dict
import Cronwatch.Theory.SlidingWindow
import Mathlib.Algebra.Order.Field.Rat
import Mathlib.Order.Monotone.Defs

namespace Cronwatch.Alerts

set_option autoImplicit false

open Cronwatch.Theory Cronwatch.Runtime Cronwatch.Jobs

structure RateLimiter where
  window : ℚ
  max : Int
  window_pos : 0 < window
  max_pos : 1 ≤ max
  states : Dict String (List ℚ) := .empty

namespace RateLimiter

def new (windowSeconds : ℚ) (maxAlerts : Int) : Except PyException RateLimiter :=
  if window_pos : 0 < windowSeconds then
    if max_pos : 1 ≤ maxAlerts then
      .ok { window := windowSeconds, max := maxAlerts, window_pos, max_pos }
    else .error (.valueError "max_alerts must be at least 1")
  else .error (.valueError "window_seconds must be positive")

/-- The time stamps of `_state(job_name)`. -/
def timestamps (limiter : RateLimiter) (jobName : String) : List ℚ :=
  (limiter.states.get? jobName).getD []

def store (limiter : RateLimiter) (jobName : String) (timestamps : List ℚ) : RateLimiter :=
  { limiter with states := limiter.states.set jobName timestamps }

/-- `_state(job_name).evict_before(now - self._window)`. -/
def evict (now : ℚ) (jobName : String) (limiter : RateLimiter) : RateLimiter :=
  limiter.store jobName (evictBefore (now - limiter.window) (limiter.timestamps jobName))

def isAllowed (now : ℚ) (jobName : String) (limiter : RateLimiter) : Bool × RateLimiter :=
  let limiter := limiter.evict now jobName
  (decide ((limiter.timestamps jobName).length < limiter.max), limiter)

def record (now : ℚ) (jobName : String) (limiter : RateLimiter) : RateLimiter :=
  let limiter := limiter.evict now jobName
  limiter.store jobName (limiter.timestamps jobName ++ [now])

def remaining (now : ℚ) (jobName : String) (limiter : RateLimiter) : Int × RateLimiter :=
  let limiter := limiter.evict now jobName
  (Max.max 0 (limiter.max - (limiter.timestamps jobName).length), limiter)

def reset (jobName : String) (limiter : RateLimiter) : RateLimiter :=
  { limiter with states := limiter.states.erase jobName }

end RateLimiter

namespace RateLimitedAlerter

/-- A call that `send` makes; the first three carry the clock reading inside them. -/
inductive Call where
  | isAllowed (jobName : String) (now : ℚ)
  | record (jobName : String) (now : ℚ)
  | remaining (jobName : String) (now : ℚ)
  | send (result : ExecutionResult)

end RateLimitedAlerter

structure RateLimitedAlerter where
  limiter : RateLimiter
  reads : Nat := 0
  calls : List RateLimitedAlerter.Call := []

namespace RateLimitedAlerter

section Calls

variable (clock : Nat → ℚ)

def isAllowed (jobName : String) (a : RateLimitedAlerter) : Bool × RateLimitedAlerter :=
  ((a.limiter.isAllowed (clock a.reads) jobName).1,
    { limiter := (a.limiter.isAllowed (clock a.reads) jobName).2
      reads := a.reads + 1
      calls := a.calls ++ [.isAllowed jobName (clock a.reads)] })

def record (jobName : String) (a : RateLimitedAlerter) : RateLimitedAlerter where
  limiter := a.limiter.record (clock a.reads) jobName
  reads := a.reads + 1
  calls := a.calls ++ [.record jobName (clock a.reads)]

def remaining (jobName : String) (a : RateLimitedAlerter) : Int × RateLimitedAlerter :=
  ((a.limiter.remaining (clock a.reads) jobName).1,
    { limiter := (a.limiter.remaining (clock a.reads) jobName).2
      reads := a.reads + 1
      calls := a.calls ++ [.remaining jobName (clock a.reads)] })

/-- The `Alerter` handed in. -/
abbrev Inner := List Call → ExecutionResult → Except PyException Unit

/-- The log lines are left out; the `remaining` calls made for them are not. -/
def send (inner : Inner) (result : ExecutionResult) (a : RateLimitedAlerter) :
    Except PyException Unit × RateLimitedAlerter :=
  match a.isAllowed clock result.jobName with
  | (false, a) => (.ok (), (a.remaining clock result.jobName).2)
  | (true, a) =>
      let a := ((a.record clock result.jobName).remaining clock result.jobName).2
      (inner a.calls result, { a with calls := a.calls ++ [.send result] })

/-- Any number of `send` calls; what one of them raises does not stop the next. -/
def sends (inner : Inner) (results : List ExecutionResult) (a : RateLimitedAlerter) :
    RateLimitedAlerter :=
  results.foldl (fun a result => (a.send clock inner result).2) a

end Calls

/-- The times at which alerts of the job were recorded. -/
def recorded (jobName : String) (calls : List Call) : List ℚ :=
  calls.filterMap fun
    | .record job now => if job = jobName then some now else none
    | _ => none

/-- The results handed to the inner alerter. -/
def forwarded (calls : List Call) : List ExecutionResult :=
  calls.filterMap fun
    | .send result => some result
    | _ => none

end RateLimitedAlerter

/-! ## The limiter prunes the history it does not keep -/

namespace RateLimiter

@[simp] theorem store_window (limiter : RateLimiter) (jobName : String) (ts : List ℚ) :
    (limiter.store jobName ts).window = limiter.window := rfl

@[simp] theorem store_max (limiter : RateLimiter) (jobName : String) (ts : List ℚ) :
    (limiter.store jobName ts).max = limiter.max := rfl

@[simp] theorem evict_window (limiter : RateLimiter) (now : ℚ) (jobName : String) :
    (limiter.evict now jobName).window = limiter.window := rfl

@[simp] theorem evict_max (limiter : RateLimiter) (now : ℚ) (jobName : String) :
    (limiter.evict now jobName).max = limiter.max := rfl

@[simp] theorem record_window (limiter : RateLimiter) (now : ℚ) (jobName : String) :
    (limiter.record now jobName).window = limiter.window := rfl

@[simp] theorem record_max (limiter : RateLimiter) (now : ℚ) (jobName : String) :
    (limiter.record now jobName).max = limiter.max := rfl

theorem timestamps_store (limiter : RateLimiter) (jobName : String) (ts : List ℚ) (job : String) :
    (limiter.store jobName ts).timestamps job =
      if job = jobName then ts else limiter.timestamps job := by
  simp only [timestamps, store, Dict.get?_set]
  split <;> rfl

/-- Every queue is what pruning up to `now` leaves of the job's history. -/
def Tracks (now : ℚ) (history : String → List ℚ) (limiter : RateLimiter) : Prop :=
  ∀ job, SuffixAt limiter.window now (history job) (limiter.timestamps job)

section Tracks

variable {now later : ℚ} {history : String → List ℚ} {limiter : RateLimiter}

theorem Tracks.mono (tracks : limiter.Tracks now history) (le : now ≤ later) :
    limiter.Tracks later history :=
  fun job => (tracks job).mono le

theorem Tracks.evict (tracks : limiter.Tracks now history) (le : now ≤ later) (jobName : String) :
    (limiter.evict later jobName).Tracks later history := by
  intro job
  rw [RateLimiter.evict, timestamps_store]
  split
  · rename_i same
    subst same
    exact (tracks job).evict le
  · exact (tracks job).mono le

theorem Tracks.record (tracks : limiter.Tracks now history) (le : now ≤ later)
    (jobName : String) : (limiter.record later jobName).Tracks later
      (fun job => history job ++ if job = jobName then [later] else []) := by
  intro job
  have pruned := tracks.evict le jobName job
  rw [RateLimiter.record, timestamps_store]
  split
  · rename_i same
    subst same
    simpa using pruned.append
  · rename_i other
    simpa [other] using pruned

/-- The count after pruning at `later` is the count of the window that ends there. -/
theorem Tracks.length_evict (tracks : limiter.Tracks now history) (le : now ≤ later)
    (jobName : String) : ((limiter.evict later jobName).timestamps jobName).length =
      countIn (later - limiter.window) later (history jobName) := by
  rw [RateLimiter.evict, timestamps_store, if_pos rfl]
  exact (tracks jobName).length_evictBefore le

theorem Tracks.isAllowed_iff (tracks : limiter.Tracks now history) (le : now ≤ later)
    (jobName : String) : (limiter.isAllowed later jobName).1 = true ↔
      (countIn (later - limiter.window) later (history jobName) : Int) < limiter.max := by
  rw [← tracks.length_evict le jobName]
  exact decide_eq_true_iff

theorem Tracks.remaining_eq (tracks : limiter.Tracks now history) (le : now ≤ later)
    (jobName : String) : (limiter.remaining later jobName).1 =
      Max.max 0 (limiter.max - countIn (later - limiter.window) later (history jobName)) := by
  rw [← tracks.length_evict le jobName]
  rfl

end Tracks

end RateLimiter

/-! ## One `send` -/

namespace RateLimitedAlerter

/-- The queues follow the recorded alerts, and no interval holds too many of them. -/
structure Good (clock : Nat → ℚ) (a : RateLimitedAlerter) : Prop where
  tracks : a.limiter.Tracks (clock a.reads) fun job => recorded job a.calls
  bounded : ∀ job, AtMost a.limiter.window a.limiter.max (recorded job a.calls)

@[simp] theorem recorded_append (jobName : String) (first second : List Call) :
    recorded jobName (first ++ second) = recorded jobName first ++ recorded jobName second :=
  List.filterMap_append

@[simp] theorem recorded_record (jobName : String) (now : ℚ) (job : String) :
    recorded job [.record jobName now] = if job = jobName then [now] else [] := by
  by_cases same : job = jobName
  · subst same
    simp [recorded]
  · have other : ¬ jobName = job := fun eq => same eq.symm
    simp [recorded, same, other]

section Send

variable {clock : Nat → ℚ} (monotone : Monotone clock) {a : RateLimitedAlerter}

include monotone in
/-- A call that only prunes. -/
theorem Good.prune (good : a.Good clock) (jobName : String) (call : Call)
    (silent : ∀ job, recorded job [call] = []) :
    Good clock { limiter := a.limiter.evict (clock a.reads) jobName
                 reads := a.reads + 1
                 calls := a.calls ++ [call] } where
  tracks := by
    intro job
    have pruned := good.tracks.evict le_rfl jobName
    simpa [silent] using pruned.mono (monotone a.reads.le_succ) job
  bounded := by
    intro job
    simpa [silent] using good.bounded job

include monotone in
theorem Good.isAllowed (good : a.Good clock) (jobName : String) :
    (a.isAllowed clock jobName).2.Good clock :=
  good.prune monotone jobName _ fun _ => rfl

include monotone in
theorem Good.remaining (good : a.Good clock) (jobName : String) :
    (a.remaining clock jobName).2.Good clock :=
  good.prune monotone jobName _ fun _ => rfl

include monotone in
/-- Recording an alert for which an earlier reading found room. -/
theorem Good.record (good : a.Good clock) {reading : ℚ} (le : reading ≤ clock a.reads)
    (jobName : String) (past : ∀ x ∈ recorded jobName a.calls, x ≤ reading)
    (room : (countIn (reading - a.limiter.window) reading (recorded jobName a.calls) : Int) <
      a.limiter.max) : (a.record clock jobName).Good clock where
  tracks := by
    intro job
    have stored := (good.tracks.record le_rfl jobName).mono (monotone a.reads.le_succ) job
    simpa [RateLimitedAlerter.record] using stored
  bounded := by
    intro job
    by_cases same : job = jobName
    · subst same
      simpa [RateLimitedAlerter.record] using (good.bounded job).append le past room
    · simpa [RateLimitedAlerter.record, same] using good.bounded job

theorem send_refused (inner : Inner) (result : ExecutionResult)
    (refused : (a.isAllowed clock result.jobName).1 = false) :
    a.send clock inner result =
      (.ok (), ((a.isAllowed clock result.jobName).2.remaining clock result.jobName).2) := by
  unfold send
  generalize a.isAllowed clock result.jobName = asked at refused
  obtain ⟨allowed, a'⟩ := asked
  cases refused
  rfl

/-- The alerter when the inner `send` is called. -/
def granted (clock : Nat → ℚ) (jobName : String) (a : RateLimitedAlerter) : RateLimitedAlerter :=
  (((a.isAllowed clock jobName).2.record clock jobName).remaining clock jobName).2

theorem send_granted (inner : Inner) (result : ExecutionResult)
    (allowed : (a.isAllowed clock result.jobName).1 = true) :
    a.send clock inner result = (inner (a.granted clock result.jobName).calls result,
      { a.granted clock result.jobName with
        calls := (a.granted clock result.jobName).calls ++ [.send result] }) := by
  unfold send granted
  generalize a.isAllowed clock result.jobName = asked at allowed
  obtain ⟨answer, a'⟩ := asked
  cases allowed
  rfl

/-- The calls of one `send`, and the readings they take. -/
theorem send_calls (clock : Nat → ℚ) (inner : Inner) (result : ExecutionResult)
    (a : RateLimitedAlerter) :
    ((a.isAllowed clock result.jobName).1 = false ∧
        (a.send clock inner result).2.reads = a.reads + 2 ∧
        (a.send clock inner result).2.calls = a.calls ++ [.isAllowed result.jobName (clock a.reads),
          .remaining result.jobName (clock (a.reads + 1))]) ∨
      (a.isAllowed clock result.jobName).1 = true ∧
        (a.send clock inner result).2.reads = a.reads + 3 ∧
        (a.send clock inner result).2.calls = a.calls ++ [.isAllowed result.jobName (clock a.reads),
          .record result.jobName (clock (a.reads + 1)),
          .remaining result.jobName (clock (a.reads + 2)), .send result] := by
  cases allowed : (a.isAllowed clock result.jobName).1 with
  | false =>
      rw [send_refused inner result allowed]
      exact .inl ⟨rfl, rfl, by
        simp [RateLimitedAlerter.isAllowed, RateLimitedAlerter.remaining]⟩
  | true =>
      rw [send_granted inner result allowed]
      exact .inr ⟨rfl, rfl, by
        simp [granted, RateLimitedAlerter.isAllowed, RateLimitedAlerter.record,
          RateLimitedAlerter.remaining]⟩

include monotone in
/-- **One `send`**: it asks first, at the first reading, and forwards the result exactly
when the window that ends there has room. -/
theorem send_spec (inner : Inner) (result : ExecutionResult) (good : a.Good clock) :
    (a.send clock inner result).2.Good clock ∧
      (a.send clock inner result).2.limiter.window = a.limiter.window ∧
      (a.send clock inner result).2.limiter.max = a.limiter.max ∧
      ∃ rest, (a.send clock inner result).2.calls =
          a.calls ++ .isAllowed result.jobName (clock a.reads) :: rest ∧
        forwarded rest =
          if (countIn (clock a.reads - a.limiter.window) (clock a.reads)
              (recorded result.jobName a.calls) : Int) < a.limiter.max
          then [result] else [] := by
  have asked := good.isAllowed monotone result.jobName
  have answer := good.tracks.isAllowed_iff le_rfl result.jobName
  have past := (good.tracks result.jobName).past
  cases allowed : (a.isAllowed clock result.jobName).1 with
  | false =>
      have full := (not_congr answer).mp (Bool.eq_false_iff.mp allowed)
      rw [send_refused inner result allowed, if_neg full]
      refine ⟨asked.remaining monotone _, rfl, rfl, [.remaining result.jobName (clock (a.reads + 1))],
        ?_, rfl⟩
      exact List.append_assoc _ _ _
  | true =>
      have room := answer.mp allowed
      have unchanged : recorded result.jobName (a.isAllowed clock result.jobName).2.calls =
          recorded result.jobName a.calls := by
        simp [RateLimitedAlerter.isAllowed, recorded]
      have stored := asked.record monotone (monotone a.reads.le_succ) result.jobName
        (by rw [unchanged]; exact past) (by rw [unchanged]; exact room)
      have after : (a.granted clock result.jobName).Good clock :=
        stored.remaining monotone result.jobName
      rw [send_granted inner result allowed, if_pos room]
      refine ⟨⟨?_, ?_⟩, rfl, rfl,
        [.record result.jobName (clock (a.reads + 1)),
          .remaining result.jobName (clock (a.reads + 2)), .send result], ?_, rfl⟩
      · intro job
        simpa [recorded] using after.tracks job
      · intro job
        simpa [recorded] using after.bounded job
      · simp [granted, RateLimitedAlerter.isAllowed, RateLimitedAlerter.record,
          RateLimitedAlerter.remaining]

/-! ## Any number of `send` calls -/

include monotone in
theorem sends_good (inner : Inner) (results : List ExecutionResult) (good : a.Good clock) :
    (a.sends clock inner results).Good clock ∧
      (a.sends clock inner results).limiter.window = a.limiter.window ∧
      (a.sends clock inner results).limiter.max = a.limiter.max := by
  induction results generalizing a with
  | nil => exact ⟨good, rfl, rfl⟩
  | cons result rest ih =>
      obtain ⟨next, window, max, -⟩ := send_spec monotone inner result good
      obtain ⟨last, windowRest, maxRest⟩ := ih next
      exact ⟨last, windowRest.trans window, maxRest.trans max⟩

end Send

/-- A fresh alerter has recorded nothing. -/
theorem good_new (clock : Nat → ℚ) {windowSeconds : ℚ} {maxAlerts : Int} {limiter : RateLimiter}
    (created : RateLimiter.new windowSeconds maxAlerts = .ok limiter) :
    limiter.window = windowSeconds ∧ limiter.max = maxAlerts ∧
      Good clock { limiter := limiter } := by
  unfold RateLimiter.new at created
  split at created
  · split at created
    · rename_i positive atLeastOne
      cases created
      exact ⟨rfl, rfl, fun job => SuffixAt.nil _ _, fun job => atMost_nil (Int.le_trans Int.one_nonneg atLeastOne)⟩
    · cases created
  · cases created

/-- **The sliding-window bound.**  In every sequence of `send` calls, with readings of
a clock that never goes back, no closed interval of length `window_seconds` holds
more than `max_alerts` recorded alerts of one job; and a result is forwarded exactly
when fewer were recorded in the window that ends at the reading of `is_allowed`. -/
theorem sends_bounded (inner : Inner) {clock : Nat → ℚ} (monotone : Monotone clock)
    {windowSeconds : ℚ} {maxAlerts : Int} {limiter : RateLimiter}
    (created : RateLimiter.new windowSeconds maxAlerts = .ok limiter)
    (results : List ExecutionResult) :
    (∀ job start, (countIn start (start + windowSeconds)
        (recorded job (sends clock inner results { limiter }).calls) : Int) ≤ maxAlerts) ∧
      ∀ before result after, results = before ++ result :: after →
        ∃ now rest, (send clock inner result (sends clock inner before { limiter })).2.calls =
            (sends clock inner before { limiter }).calls ++ .isAllowed result.jobName now :: rest ∧
          forwarded rest =
            if (countIn (now - windowSeconds) now
                (recorded result.jobName (sends clock inner before { limiter }).calls) : Int) <
              maxAlerts
            then [result] else [] := by
  obtain ⟨rfl, rfl, fresh⟩ := good_new clock created
  constructor
  · intro job start
    obtain ⟨good, window, max⟩ := sends_good monotone inner results fresh
    rw [← window, ← max]
    exact good.bounded job start
  · intro before result after _
    obtain ⟨good, window, max⟩ := sends_good monotone inner before fresh
    obtain ⟨-, -, -, rest, calls, forwards⟩ := send_spec monotone inner result good
    rw [window, max] at forwards
    exact ⟨_, rest, calls, forwards⟩

def twoInTenSeconds : RateLimiter where
  window := 10
  max := 2
  window_pos := by decide
  max_pos := by decide

theorem new_twoInTenSeconds : RateLimiter.new 10 2 = .ok twoInTenSeconds := by
  simp [RateLimiter.new, twoInTenSeconds]

def backupFailed : ExecutionResult where
  jobName := "backup"
  exitCode := 1
  stdout := ""
  stderr := "disk full"
  durationSeconds := 3
  startedAt := 0
  finishedAt := 3

theorem identityClock_monotone : Monotone fun n : Nat => (n : ℚ) :=
  fun _ _ le => Nat.cast_le.mpr le

/-- Three failures within ten readings of a clock that advances by one second: the third
alert is suppressed. -/
theorem third_alert_suppressed :
    forwarded (sends (fun n : Nat => (n : ℚ)) (fun _ _ => .ok ())
        [backupFailed, backupFailed, backupFailed] { limiter := twoInTenSeconds }).calls =
      [backupFailed, backupFailed] ∧
    ∀ start, (countIn start (start + 10) (recorded "backup"
      (sends (fun n : Nat => (n : ℚ)) (fun _ _ => .ok ())
        [backupFailed, backupFailed, backupFailed] { limiter := twoInTenSeconds }).calls) : Int) ≤ 2 :=
  ⟨by decide +kernel,
    (sends_bounded (fun _ _ => .ok ()) identityClock_monotone new_twoInTenSeconds
      [backupFailed, backupFailed, backupFailed]).1 "backup"⟩

end RateLimitedAlerter

end Cronwatch.Alerts
