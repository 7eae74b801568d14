/-
# Jobs.Backoff -- delays between retries that grow up to a maximum

`delaySeconds` computes the power first and takes the maximum afterwards, as the quiet
periods of `Alerts.Throttle` do.  So with powers of floats both raise once the power is
too large, however small the maximum is, and never before (`backoff_returns_iff`).
-/
import Cronwatch.Alerts.Throttle

namespace Cronwatch.Jobs

set_option autoImplicit false

open Cronwatch.Theory Cronwatch.Runtime

structure BackoffStrategy where
  baseSeconds : ℚ := 5
  multiplier : ℚ := 2
  maxSeconds : ℚ := 300
deriving DecidableEq

namespace BackoffStrategy

/-- The delay before an attempt, the first retry being attempt 1. -/
def delaySeconds (pow : Power) (attempt : Int) (strategy : BackoffStrategy) :
    Except PyException ℚ :=
  if attempt < 1 then .error (.valueError s!"attempt must be >= 1, got {attempt}")
  else
    match pow strategy.multiplier (attempt - 1).toNat with
    | .error e => .error e
    | .ok power => .ok (min (strategy.baseSeconds * power) strategy.maxSeconds)

def delaysFor (pow : Power) (totalAttempts : Int) (strategy : BackoffStrategy) :
    Except PyException (List ℚ) :=
  (List.range totalAttempts.toNat).mapM fun k : Nat => strategy.delaySeconds pow (k + 1)

/-- The delay of a retry, in exact arithmetic. -/
def delay (attempt : Int) (strategy : BackoffStrategy) : ℚ :=
  min (strategy.baseSeconds * strategy.multiplier ^ (attempt - 1).toNat) strategy.maxSeconds

theorem delaySeconds_returns_iff {strategy : BackoffStrategy} (growing : 1 ≤ strategy.multiplier)
    {attempt : Int} (retry : 1 ≤ attempt) :
    strategy.delaySeconds mathPow attempt = .ok (strategy.delay attempt) ↔
      strategy.multiplier ^ (attempt - 1).toNat < 2 ^ 1024 := by
  rw [delaySeconds, if_neg (not_lt.mpr retry), mathPow, floatPow_of_one_le _ growing]
  by_cases small : strategy.multiplier ^ (attempt - 1).toNat < 2 ^ 1024
  · rw [if_pos small]
    exact iff_of_true rfl small
  · rw [if_neg small]
    exact iff_of_false (fun impossible => by cases impossible) small

/-- With exact powers every delay is the capped one. -/
theorem delaysFor_exactPow (totalAttempts : Int) (strategy : BackoffStrategy) :
    strategy.delaysFor exactPow totalAttempts =
      .ok ((List.range totalAttempts.toNat).map fun k =>
        min (strategy.baseSeconds * strategy.multiplier ^ k) strategy.maxSeconds) := by
  have each : ∀ k : Nat, strategy.delaySeconds exactPow (k + 1) =
      .ok (min (strategy.baseSeconds * strategy.multiplier ^ k) strategy.maxSeconds) := by
    intro k
    have exponent : ((k : Int) + 1 - 1).toNat = k := by omega
    rw [delaySeconds, if_neg (by omega), exponent]
    rfl
  rw [delaysFor, funext each]
  exact List.mapM_pure

open Cronwatch.Alerts Cronwatch.Alerts.AlertThrottle

/-- **When backing off raises nothing.**  A run of the throttle does exactly when at every
failure the power for the alerts so far is below 2^1024; a policy never raises, however long
the runs are, exactly when it does not back off; and a delay is the capped one exactly when
the power for its attempt is below 2^1024. -/
theorem backoff_returns_iff {policy : ThrottlePolicy} (quieter : 1 ≤ policy.backoffMultiplier)
    (events : List AlertThrottle.Event) {strategy : BackoffStrategy}
    (slower : 1 ≤ strategy.multiplier) {attempt : Int} (retry : 1 ≤ attempt) :
    (Returns doubleStar policy events ↔
      ∀ before jobName now after, events = before ++ .allow jobName false now :: after →
        policy.backoffMultiplier ^
          (((run doubleStar policy before).state jobName).consecutiveAlerts - 1) < 2 ^ 1024) ∧
    ((∀ events, Returns doubleStar policy events) ↔ policy.backoffMultiplier = 1) ∧
    (strategy.delaySeconds mathPow attempt =
        .ok (min (strategy.baseSeconds * strategy.multiplier ^ (attempt - 1).toNat)
          strategy.maxSeconds) ↔
      strategy.multiplier ^ (attempt - 1).toNat < 2 ^ 1024) :=
  ⟨returns_iff quieter events, never_raises_iff quieter, delaySeconds_returns_iff slower retry⟩

/-- Failures of two jobs, some of them in a quiet period of five, ten and twenty minutes. -/
def growing : List AlertThrottle.Event :=
  [.allow "backup" false 300, .allow "backup" false 400, .allow "report" false 500,
    .allow "backup" false 600, .allow "backup" false 1199, .allow "backup" false 1200,
    .allow "backup" false 2399, .allow "backup" false 2400, .allow "report" false 2500]

/-- Four alerts of one job after quiet periods that grow, two of the other, and the delay
before the fifth retry. -/
theorem growing_returns :
    (keyed doubleStar {}).outputs {} growing =
        [true, false, true, true, false, true, false, true, true].map
          (fun allowed => some (.ok allowed)) ∧
      Returns doubleStar {} growing ∧ (¬ ∀ events, Returns doubleStar {} events) ∧
      delaySeconds mathPow 5 {} = .ok (min (5 * 2 ^ ((5 : Int) - 1).toNat) 300) := by
  obtain ⟨throttle, always, delay⟩ :=
    backoff_returns_iff (show 1 ≤ ({} : ThrottlePolicy).backoffMultiplier by decide)
      growing (show 1 ≤ ({} : BackoffStrategy).multiplier by decide)
      (show (1 : Int) ≤ 5 by decide)
  refine ⟨by decide +kernel, throttle.mpr ?_, fun never => ?_, delay.mpr (by decide +kernel)⟩
  · intro before jobName now after split
    have alerts := consecutiveAlerts_le doubleStar {} jobName before
    have calls : before.length + after.length + 1 = 9 := by
      rw [show 9 = growing.length from rfl, split, List.length_append, List.length_cons]
      omega
    exact pow_lt_pow_right₀ one_lt_two (by omega)
  · exact absurd (always.mp never) (by decide)

/-- With the default policy the failure after 1025 hourly alerts raises, and so does the
delay before attempt 1025 of the default strategy. -/
theorem backoff_overflows :
    answer doubleStar {} (steady {} "backup" 1025) (.allow "backup" false (1026 * 3600)) =
        some (.error (.overflowError "(34, 'Numerical result out of range')")) ∧
      delaySeconds mathPow 1025 {} = .error (.overflowError "math range error") := by
  have growing : 1 ≤ ({} : ThrottlePolicy).backoffMultiplier := by decide
  have small : ∀ k < 1025, ({} : ThrottlePolicy).backoffMultiplier ^ (k - 1) < 2 ^ 1024 :=
    fun k less => pow_lt_pow_right₀ one_lt_two (by omega)
  have large : ∀ message, floatPow message 2 1024 = .error (.overflowError message) := by
    intro message
    rw [floatPow_of_one_le message one_le_two, if_neg (lt_irrefl _)]
  constructor
  · rw [answer, step_answer, Event.jobName, state_steady growing "backup" 1025 small, own,
      ThrottlePolicy.intervalFor, doubleStar]
    dsimp only
    rw [show 1025 - 1 = 1024 from rfl, large]
  · rw [delaySeconds, if_neg (by decide), mathPow]
    dsimp only
    rw [show ((1025 : Int) - 1).toNat = 1024 from rfl, large]

end BackoffStrategy

end Cronwatch.Jobs
