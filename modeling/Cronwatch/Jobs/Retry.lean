/-
# Jobs.Retry -- running a job again until it succeeds

`withRetry` calls the runner up to `attempts_for` times, and at least once.  After every
failure but the last possible one it sleeps, at first for the delay of the job and then for
a multiple of what it slept before.  The runner and `sleep` are code handed in; `outcomes`
are what the runner does at its calls, in their order.

`Complete` says what a run is in closed form, and `withRetry_complete` that it is that, for
any runner that returns and any `sleep` that does.  `timeSleep` does for delays that are not
negative (`retryingExecutor_complete`).
-/
import Cronwatch.Jobs.Backoff
import Cronwatch.Jobs.Config
import Cronwatch.Jobs.Execution

namespace Cronwatch.Jobs

set_option autoImplicit false

open Cronwatch.Theory Cronwatch.Runtime

/-- The numbers that a job may have in `per_job`. -/
structure RetryOverride where
  attempts : Option ℚ := none
  delay : Option ℚ := none
  backoff : Option ℚ := none

structure RetryPolicy where
  defaultAttempts : Int := 1
  defaultDelay : ℚ := 5
  defaultBackoff : ℚ := 1
  perJob : Dict String RetryOverride := .empty

/-- `int(q)`, towards zero. -/
def truncated (q : ℚ) : Int := q.num.tdiv q.den

namespace RetryPolicy

/-- `self.per_job.get(job_name, {})`. -/
def overrideFor (policy : RetryPolicy) (jobName : String) : RetryOverride :=
  (policy.perJob.get? jobName).getD {}

def attemptsFor (policy : RetryPolicy) (jobName : String) : Int :=
  truncated ((policy.overrideFor jobName).attempts.getD policy.defaultAttempts)

def delayFor (policy : RetryPolicy) (jobName : String) : ℚ :=
  (policy.overrideFor jobName).delay.getD policy.defaultDelay

def backoffFor (policy : RetryPolicy) (jobName : String) : ℚ :=
  (policy.overrideFor jobName).backoff.getD policy.defaultBackoff

/-- `max(1, policy.attempts_for(job.name))`. -/
def maxAttempts (policy : RetryPolicy) (jobName : String) : Nat :=
  (max 1 (policy.attemptsFor jobName)).toNat

theorem one_le_maxAttempts (policy : RetryPolicy) (jobName : String) :
    1 ≤ policy.maxAttempts jobName := by
  rw [maxAttempts]
  omega

end RetryPolicy

structure RetryResult where
  final : ExecutionResult
  attempts : Nat
  succeeded : Bool
deriving DecidableEq

/-- What `with_retry` does to the code that is handed in. -/
inductive RetryEvent where
  | called
  | slept (delay : ℚ)
deriving DecidableEq

def RetryEvent.delay? : RetryEvent → Option ℚ
  | .called => none
  | .slept delay => some delay

namespace Retry

/-- What the runner does at its n-th call, counted from zero. -/
abbrev Outcomes := Nat → Except PyException ExecutionResult

section Loop

variable (outcomes : Outcomes) (sleep : ℚ → Except PyException Unit)
  (maxAttempts : Nat) (backoff : ℚ)

/-- The loop over the attempts, with the delay and the result as they stand. -/
def attemptLoop : List Nat → ℚ → Option ExecutionResult → List RetryEvent →
    Except PyException RetryResult × List RetryEvent
  | [], _, none, events => (.error (.foreign "AssertionError"), events)
  | [], _, some final, events =>
      (.ok { final, attempts := maxAttempts, succeeded := false }, events)
  | attempt :: rest, delay, _, events =>
      match outcomes (events.count .called) with
      | .error e => (.error e, events ++ [.called])
      | .ok result =>
          if result.success then
            (.ok { final := result, attempts := attempt, succeeded := true }, events ++ [.called])
          else if attempt < maxAttempts then
            match sleep delay with
            | .error e => (.error e, events ++ [.called, .slept delay])
            | .ok () =>
                attemptLoop rest (delay * backoff) (some result) (events ++ [.called, .slept delay])
          else attemptLoop rest delay (some result) (events ++ [.called])

end Loop

/-- `with_retry`. -/
def withRetry (outcomes : Outcomes) (sleep : ℚ → Except PyException Unit) (policy : RetryPolicy)
    (job : JobConfig) : Except PyException RetryResult × List RetryEvent :=
  attemptLoop outcomes sleep (policy.maxAttempts job.name) (policy.backoffFor job.name)
    (List.range' 1 (policy.maxAttempts job.name)) (policy.delayFor job.name) none []

/-! ## The closed form -/

/-- A call, and another one after each of the delays. -/
def withDelays (delays : List ℚ) : List RetryEvent :=
  .called :: delays.flatMap fun delay => [.slept delay, .called]

/-- The first `n` delays, in exact arithmetic. -/
def delaysOf (policy : RetryPolicy) (job : JobConfig) (n : Nat) : List ℚ :=
  (List.range n).map fun k => policy.delayFor job.name * policy.backoffFor job.name ^ k

/-- **What a run is**, by the number of calls in it: they are as many as it takes to the
first success (`i` counts from zero), up to the maximum; the delays between them are those of a strategy without a
cap; and the last of the results is returned. -/
structure Complete (policy : RetryPolicy) (job : JobConfig) (results : Nat → ExecutionResult)
    (run : Except PyException RetryResult × List RetryEvent) : Prop where
  first : ∀ i, (results i).success = true → (∀ k < i, (results k).success = false) →
    run.2.count .called = min (i + 1) (policy.maxAttempts job.name)
  never : (∀ k < policy.maxAttempts job.name, (results k).success = false) →
    run.2.count .called = policy.maxAttempts job.name
  events : run.2 = withDelays (delaysOf policy job (run.2.count .called - 1))
  delays : ∀ maxSeconds, (∀ delay ∈ delaysOf policy job (run.2.count .called - 1), delay ≤ maxSeconds) →
    BackoffStrategy.delaysFor exactPow (run.2.count .called - 1)
        ⟨policy.delayFor job.name, policy.backoffFor job.name, maxSeconds⟩ =
      .ok (run.2.filterMap RetryEvent.delay?)
  returned : run.1 = .ok
    { final := results (run.2.count .called - 1)
      attempts := run.2.count .called
      succeeded := (results (run.2.count .called - 1)).success }

/-- The runner returns, and `sleep` does, wherever they are called. -/
structure Served (policy : RetryPolicy) (job : JobConfig) (outcomes : Outcomes)
    (sleep : ℚ → Except PyException Unit) (results : Nat → ExecutionResult) : Prop where
  runner : ∀ k < policy.maxAttempts job.name, (∀ j < k, (results j).success = false) →
    outcomes k = .ok (results k)
  sleep : ∀ k, k + 1 < policy.maxAttempts job.name → (∀ j < k + 1, (results j).success = false) →
    sleep (policy.delayFor job.name * policy.backoffFor job.name ^ k) = .ok ()

theorem count_withDelays (delays : List ℚ) :
    (withDelays delays).count .called = delays.length + 1 := by
  induction delays with
  | nil => rfl
  | cons delay rest ih =>
      show (.called :: .slept delay :: withDelays rest : List RetryEvent).count .called = _
      rw [List.count_cons_self, List.count_cons_of_ne (by simp), ih, List.length_cons]

theorem delays_withDelays (delays : List ℚ) :
    (withDelays delays).filterMap RetryEvent.delay? = delays := by
  induction delays with
  | nil => rfl
  | cons delay rest ih =>
      show delay :: (withDelays rest).filterMap RetryEvent.delay? = _
      rw [ih]

section Lemmas

variable {policy : RetryPolicy} {job : JobConfig} {outcomes : Outcomes}
  {sleep : ℚ → Except PyException Unit} {results : Nat → ExecutionResult}

/-- The delays from the k-th on, the first of them apart. -/
theorem delays_succ (base backoff : ℚ) (k s : Nat) :
    ((List.range (s + 1)).map fun j => base * backoff ^ (k + j)) =
      base * backoff ^ k :: (List.range s).map fun j => base * backoff ^ (k + 1 + j) := by
  rw [List.range_succ_eq_map, List.map_cons, List.map_map, Nat.add_zero]
  refine congrArg _ (List.map_congr_left fun j _ => ?_)
  rw [Function.comp_apply, Nat.succ_eq_add_one, Nat.add_right_comm, Nat.add_assoc]

/-- **The loop**, entered after `k` failures: it makes `s` more sleeps, each after a failure,
and ends with a success or at the maximum. -/
theorem attemptLoop_runs (served : Served policy job outcomes sleep results) (remaining : Nat) :
    ∀ {k : Nat} {result : Option ExecutionResult} {events : List RetryEvent},
      events.count .called = k → k + remaining + 1 = policy.maxAttempts job.name →
      (∀ j < k, (results j).success = false) →
      ∃ s, k + s < policy.maxAttempts job.name ∧ (∀ j < k + s, (results j).success = false) ∧
        (k + s + 1 = policy.maxAttempts job.name ∨ (results (k + s)).success = true) ∧
        attemptLoop outcomes sleep (policy.maxAttempts job.name) (policy.backoffFor job.name)
            (List.range' (k + 1) (remaining + 1))
            (policy.delayFor job.name * policy.backoffFor job.name ^ k) result events =
          (.ok ⟨results (k + s), k + s + 1, (results (k + s)).success⟩,
            events ++ withDelays ((List.range s).map fun j =>
              policy.delayFor job.name * policy.backoffFor job.name ^ (k + j))) := by
  induction remaining with
  | zero =>
      intro k result events made last failed
      have ran := served.runner k (by omega) failed
      refine ⟨0, by omega, failed, .inl (by omega), ?_⟩
      rw [List.range'_one, attemptLoop, made, ran]
      dsimp only
      split
      · rename_i success
        simp [success, withDelays]
      · rename_i failure
        rw [if_neg (by omega), attemptLoop]
        simp [failure, withDelays, ← last]
  | succ remaining ih =>
      intro k result events made more failed
      have ran := served.runner k (by omega) failed
      rw [List.range'_succ, attemptLoop, made, ran]
      dsimp only
      split
      · rename_i success
        exact ⟨0, by omega, failed, .inr success, by simp [success, withDelays]⟩
      · rename_i failure
        have failed' : ∀ j < k + 1, (results j).success = false := by
          intro j less
          rcases Nat.lt_succ_iff_lt_or_eq.mp less with earlier | rfl
          · exact failed j earlier
          · exact Bool.eq_false_iff.mpr failure
        have slept := served.sleep k (by omega) failed'
        have made' : (events ++ [RetryEvent.called, RetryEvent.slept (policy.delayFor job.name *
            policy.backoffFor job.name ^ k)]).count RetryEvent.called = k + 1 := by
          rw [List.count_append, made]
          rfl
        obtain ⟨s, less, all, ended, runs⟩ := @ih (k + 1) (some (results k)) _ made' (by omega) failed'
        have shifted : k + 1 + s = k + (s + 1) := by omega
        rw [shifted] at less all ended
        refine ⟨s + 1, less, all, ended, ?_⟩
        rw [if_pos (by omega), slept]
        dsimp only
        rw [mul_assoc, ← pow_succ, runs, delays_succ, shifted, List.append_assoc]
        rfl

/-- A run that ends with its (s + 1)-th call. -/
theorem complete_of_calls {s : Nat} (less : s < policy.maxAttempts job.name)
    (failed : ∀ j < s, (results j).success = false)
    (ended : s + 1 = policy.maxAttempts job.name ∨ (results s).success = true) :
    Complete policy job results
      (.ok ⟨results s, s + 1, (results s).success⟩, withDelays (delaysOf policy job s)) := by
  have calls : (withDelays (delaysOf policy job s)).count .called = s + 1 := by
    rw [count_withDelays, delaysOf, List.length_map, List.length_range]
  have one : s + 1 - 1 = s := Nat.add_sub_cancel ..
  constructor
  · intro i success earlier
    rw [calls]
    have le : s ≤ i := by
      by_contra late
      rw [failed i (by omega)] at success
      cases success
    rcases ended with last | here
    · omega
    · have same : s = i := by
        by_contra other
        rw [earlier s (by omega)] at here
        cases here
      omega
  · intro never
    rw [calls]
    rcases ended with last | here
    · exact last
    · rw [never s less] at here
      cases here
  · rw [calls, one]
  · intro maxSeconds uncapped
    rw [calls, one] at uncapped
    rw [calls, delays_withDelays, BackoffStrategy.delaysFor_exactPow]
    have total : (((s + 1 : Nat) : Int) - 1).toNat = s := by omega
    rw [total]
    refine congrArg Except.ok (List.map_congr_left fun k member => ?_)
    exact min_eq_left (uncapped _ (List.mem_map_of_mem member))
  · rw [calls, one]

/-- **What `with_retry` does**, for every policy and any outcomes of the runner. -/
theorem withRetry_complete (served : Served policy job outcomes sleep results) :
    Complete policy job results (withRetry outcomes sleep policy job) := by
  obtain ⟨remaining, attempts⟩ : ∃ remaining, policy.maxAttempts job.name = remaining + 1 :=
    Nat.exists_eq_add_of_le' (policy.one_le_maxAttempts job.name)
  obtain ⟨s, less, failed, ended, runs⟩ := @attemptLoop_runs _ _ _ _ _ served remaining 0 none []
    rfl (by omega) fun j impossible => absurd impossible (Nat.not_lt_zero j)
  simp only [Nat.zero_add] at less failed ended runs
  rw [pow_zero, mul_one, ← attempts, List.nil_append] at runs
  rw [withRetry, runs]
  exact complete_of_calls less failed ended

end Lemmas

/-- `time.sleep`. -/
def timeSleep (seconds : ℚ) : Except PyException Unit :=
  if seconds < 0 then .error (.valueError "sleep length must be non-negative") else .ok ()

/-- A backup, and how its runs end. -/
def backup : JobConfig where
  name := "backup"
  command := "pg_dump -Fc app"
  schedule := "0 2 * * *"

def ended (exitCode : Int) : ExecutionResult where
  jobName := "backup"
  exitCode := exitCode
  stdout := ""
  stderr := ""
  durationSeconds := 60
  startedAt := 0
  finishedAt := 60

/-- Up to four times, after two seconds and then twice as many. -/
def doubling : RetryPolicy where
  perJob := Dict.empty.set "backup" { attempts := some 4, delay := some 2, backoff := some 2 }

/-- A runner that has no more than three results, the third of them good. -/
def thirdTime : Outcomes
  | 0 => .ok (ended 1)
  | 1 => .ok (ended 2)
  | 2 => .ok (ended 0)
  | _ => .error (.foreign "StopIteration")

/-- The fourth result would not be there, and is not asked for. -/
theorem complete_thirdTime :
    Complete doubling backup (fun k => if k < 2 then ended (k + 1) else ended 0)
        (withRetry thirdTime timeSleep doubling backup) ∧
      (withRetry thirdTime timeSleep doubling backup).2 =
        [.called, .slept 2, .called, .slept 4, .called] := by
  have attempts : doubling.maxAttempts backup.name = 4 := by decide +kernel
  refine ⟨withRetry_complete ⟨fun k less failed => ?_, fun k _ _ => ?_⟩, by decide +kernel⟩
  · rw [attempts] at less
    match k, less, failed with
    | 0, _, _ => rfl
    | 1, _, _ => rfl
    | 2, _, _ => rfl
    | 3, _, failed => exact absurd (failed 2 (by decide)) (by decide)
  · have delay : 0 ≤ doubling.delayFor backup.name := by decide +kernel
    have backoff : 0 ≤ doubling.backoffFor backup.name := by decide +kernel
    exact if_neg (not_lt.mpr (mul_nonneg delay (pow_nonneg backoff k)))

/-- `RetryingExecutor.run`, which sleeps for real. -/
def RetryingExecutor.run (outcomes : Outcomes) (policy : RetryPolicy) (job : JobConfig) :
    Except PyException RetryResult × List RetryEvent :=
  withRetry outcomes timeSleep policy job

/-- **With delays that are not negative** nothing is asked of the sleeping. -/
theorem retryingExecutor_complete {policy : RetryPolicy} {job : JobConfig}
    (results : Nat → ExecutionResult) (delay : 0 ≤ policy.delayFor job.name)
    (backoff : 0 ≤ policy.backoffFor job.name) :
    Complete policy job results
      (RetryingExecutor.run (fun k => .ok (results k)) policy job) := by
  refine withRetry_complete ⟨fun k _ _ => rfl, fun k _ _ => ?_⟩
  have nonneg : 0 ≤ policy.delayFor job.name * policy.backoffFor job.name ^ k :=
    mul_nonneg delay (pow_nonneg backoff k)
  exact if_neg (not_lt.mpr nonneg)

/-- A negative delay ends the run after its first failure. -/
theorem retryingExecutor_negative {policy : RetryPolicy} {job : JobConfig}
    {results : Nat → ExecutionResult} (negative : policy.delayFor job.name < 0)
    (more : 1 < policy.maxAttempts job.name) (failed : (results 0).success = false) :
    RetryingExecutor.run (fun k => .ok (results k)) policy job =
      (.error (.valueError "sleep length must be non-negative"),
        [.called, .slept (policy.delayFor job.name)]) := by
  obtain ⟨n, attempts⟩ : ∃ n, policy.maxAttempts job.name = n + 1 :=
    Nat.exists_eq_add_of_le' (policy.one_le_maxAttempts job.name)
  rw [RetryingExecutor.run, withRetry, attempts, List.range'_succ, attemptLoop]
  dsimp only [List.count_nil]
  rw [if_neg (by simp [failed]), if_pos (by omega), timeSleep, if_pos negative]
  rfl

end Retry

end Cronwatch.Jobs
