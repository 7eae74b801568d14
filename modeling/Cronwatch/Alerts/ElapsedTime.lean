/-
# Alerts.ElapsedTime -- what the zero of the clock has to do with alerts

`AlertThrottle` and `Notifier` start from a last alert at 0, as if there had been one
when the clock was zero.  So the first failure of a job is suppressed while the clock is
young, and a clock with another zero answers otherwise.

`elapsed_only_iff` says when that does not happen: exactly in the runs in which every
first failure comes at a reading that is past the first quiet period.  In such a run all
later answers depend on differences of readings alone; the two runs correspond by
`Keyed.outputs_congr`, with `fresh` as the note of the calls so far.
-/
import Cronwatch.Alerts.Notifier
import Cronwatch.Alerts.Throttle

namespace Cronwatch.Alerts

set_option autoImplicit false

open Cronwatch.Theory Cronwatch.Runtime Cronwatch.Jobs

namespace AlertThrottle

/-- The same call on a clock that shows `c` more. -/
def Event.shift (c : ℚ) : Event → Event
  | .allow jobName success now => .allow jobName success (now + c)
  | .reset jobName => .reset jobName

/-- No failure since the state was cleared, given so before a call. -/
def freshAfter (policy : ThrottlePolicy) (fresh : Bool) : Event → Bool
  | .allow _ true _ => policy.resetOnSuccess || fresh
  | .allow _ false _ => false
  | .reset _ => true

/-- The job has not failed since its state was last cleared. -/
def fresh (policy : ThrottlePolicy) (jobName : String) (events : List Event) : Bool :=
  (events.filter fun e => e.jobName = jobName).foldl (freshAfter policy) true

/-- The answers depend on elapsed time alone, and a first failure is always alerted. -/
structure ElapsedOnly (policy : ThrottlePolicy) (events : List Event) : Prop where
  shift : ∀ c, 0 ≤ c → (keyed doubleStar policy).outputs {} (events.map (Event.shift c)) =
    (keyed doubleStar policy).outputs {} events
  first : ∀ before jobName now after, events = before ++ .allow jobName false now :: after →
    fresh policy jobName before = true →
    answer doubleStar policy before (.allow jobName false now) = some (.ok true)

section

variable (policy : ThrottlePolicy)

theorem intervalFor_first :
    policy.intervalFor doubleStar 0 =
      .ok (min policy.baseIntervalSeconds policy.maxIntervalSeconds) := by
  rw [ThrottlePolicy.intervalFor, doubleStar, floatPow_zero]
  dsimp only
  rw [mul_one]

/-- Calls without a failure leave the state as it is when it is new. -/
theorem ownRun_of_fresh (events : List Event)
    (isFresh : events.foldl (freshAfter policy) true = true) :
    (keyed doubleStar policy).ownRun {} events = {} := by
  induction events using List.reverseRecOn with
  | nil => rfl
  | append_singleton before e ih =>
      rw [List.foldl_append] at isFresh
      rw [Keyed.ownRun_append_single]
      cases e with
      | allow jobName success now =>
          cases success with
          | true =>
              show (if policy.resetOnSuccess then {} else _) = ({} : JobThrottleState)
              split
              · rfl
              · rename_i keeps
                refine ih ?_
                simpa [freshAfter, Bool.eq_false_iff.mpr keeps] using isFresh
          | false => cases isFresh
      | reset jobName => rfl

/-- **The first failure** is alerted exactly when the reading is past the first quiet
period. -/
theorem first_allowed_iff {jobName : String} {before : List Event}
    (isFresh : fresh policy jobName before = true) (now : ℚ) :
    answer doubleStar policy before (.allow jobName false now) = some (.ok true) ↔
      min policy.baseIntervalSeconds policy.maxIntervalSeconds ≤ now := by
  have new : (run doubleStar policy before).state jobName = {} :=
    ((keyed doubleStar policy).view_run {} before jobName).trans
      (ownRun_of_fresh policy _ isFresh)
  rw [answer, step_answer, Event.jobName, new, own, intervalFor_first]
  dsimp only
  rw [sub_zero]
  split
  · rename_i passed
    exact iff_of_true rfl passed
  · rename_i early
    exact iff_of_false (by simp) early

/-- The states of a job in the two runs. -/
def Shifted (c : ℚ) (isFresh : Bool) (s s' : JobThrottleState) : Prop :=
  if isFresh then s = {} ∧ s' = {}
  else 1 ≤ s.consecutiveAlerts ∧ s'.consecutiveAlerts = s.consecutiveAlerts ∧
    s'.lastAlertAt = s.lastAlertAt + c

/-- **One call** in the two runs. -/
theorem own_shift {c : ℚ} (nonneg : 0 ≤ c) (isFresh : Bool) (s s' : JobThrottleState) (e : Event)
    (related : Shifted c isFresh s s')
    (late : isFresh = true → ∀ jobName now, e = .allow jobName false now →
      min policy.baseIntervalSeconds policy.maxIntervalSeconds ≤ now) :
    (own doubleStar policy s' (e.shift c)).1 = (own doubleStar policy s e).1 ∧
      Shifted c (freshAfter policy isFresh e) (own doubleStar policy s e).2
        (own doubleStar policy s' (e.shift c)).2 := by
  cases e with
  | allow jobName success now =>
      cases success with
      | true =>
          refine ⟨rfl, ?_⟩
          rw [Event.shift, own, own, freshAfter]
          dsimp only
          split
          · rename_i clears
            rw [clears, Bool.true_or]
            exact ⟨rfl, rfl⟩
          · rename_i keeps
            rwa [Bool.eq_false_iff.mpr keeps, Bool.false_or]
      | false =>
          rw [Event.shift, own, own, freshAfter]
          cases isFresh with
          | true =>
              obtain ⟨rfl, rfl⟩ := related
              have passed := late rfl jobName now rfl
              have passed' : min policy.baseIntervalSeconds policy.maxIntervalSeconds ≤ now + c :=
                passed.trans (le_add_of_nonneg_right nonneg)
              rw [intervalFor_first]
              dsimp only
              rw [sub_zero, sub_zero, if_pos passed, if_pos passed']
              exact ⟨rfl, le_rfl, rfl, rfl⟩
          | false =>
              obtain ⟨alerted, same, last⟩ := related
              have elapsed : now + c - s'.lastAlertAt = now - s.lastAlertAt := by
                rw [last, add_sub_add_right_eq_sub]
              rw [same, elapsed]
              split
              · exact ⟨rfl, alerted, same, last⟩
              · split
                · exact ⟨rfl, Nat.le_add_left 1 _, rfl, rfl⟩
                · exact ⟨rfl, alerted, same, last⟩
  | reset jobName => exact ⟨rfl, rfl, rfl⟩

/-- **When the throttle depends on elapsed time alone.** -/
theorem elapsedOnly_iff (events : List Event) :
    ElapsedOnly policy events ↔
      ∀ before jobName now after, events = before ++ .allow jobName false now :: after →
        fresh policy jobName before = true →
        min policy.baseIntervalSeconds policy.maxIntervalSeconds ≤ now := by
  constructor
  · intro elapsedOnly before jobName now after split isFresh
    exact (first_allowed_iff policy isFresh now).mp
      (elapsedOnly.first before jobName now after split isFresh)
  · intro late
    constructor
    · intro c nonneg
      have guarded : (keyed doubleStar policy).Meets (freshAfter policy)
          (fun isFresh e => isFresh = true → ∀ jobName now, e = .allow jobName false now →
            min policy.baseIntervalSeconds policy.maxIntervalSeconds ≤ now)
          (fun _ => true) events := by
        rintro before e after split isFresh jobName now rfl
        exact late before jobName now after split isFresh
      exact Keyed.outputs_congr (fun e => by cases e <;> rfl)
        (fun isFresh s s' e => own_shift policy nonneg isFresh s s' e)
        (fun _ => ⟨rfl, rfl⟩) guarded
    · intro before jobName now after split isFresh
      exact (first_allowed_iff policy isFresh now).mpr
        (late before jobName now after split isFresh)

end

end AlertThrottle

namespace Notifier

/-- The same call on a clock that shows `c` more. -/
def Event.shift (c : ℚ) : Event → Event
  | .shouldNotify result now => .shouldNotify result (now + c)
  | .reset jobName => .reset jobName

/-- No failure since the last reset, given so before a call. -/
def freshAfter (fresh : Bool) : Event → Bool
  | .shouldNotify result _ => result.success && fresh
  | .reset _ => true

/-- The job has not failed since its last reset. -/
def fresh (jobName : String) (events : List Event) : Bool :=
  (events.filter fun e => e.jobName = jobName).foldl freshAfter true

/-- The answers depend on elapsed time alone, and a first failure is always notified. -/
structure ElapsedOnly (minIntervalSeconds : ℚ) (notifyOnRecovery : Bool) (events : List Event) :
    Prop where
  shift : ∀ c, 0 ≤ c →
    (keyed minIntervalSeconds notifyOnRecovery).outputs {} (events.map (Event.shift c)) =
      (keyed minIntervalSeconds notifyOnRecovery).outputs {} events
  first : ∀ before result now after, events = before ++ .shouldNotify result now :: after →
    result.success = false → fresh result.jobName before = true →
    answer minIntervalSeconds notifyOnRecovery before (.shouldNotify result now) = some true

section

variable (minIntervalSeconds : ℚ) (notifyOnRecovery : Bool)

/-- The state of a job that has not failed: nothing was notified. -/
def Unnotified (s : NotifierState) : Prop :=
  s.lastNotifiedAt = 0 ∧ (s.lastExitCode = none ∨ s.lastExitCode = some 0)

theorem judge_of_success {result : ExecutionResult} (succeeded : result.success = true) (now : ℚ)
    {s : NotifierState} (unnotified : Unnotified s) :
    judge minIntervalSeconds notifyOnRecovery now result s =
      (false, { s with consecutiveFailures := 0, lastExitCode := some 0 }) := by
  have healthy : ¬ ((s.lastExitCode.isSome = true ∧ s.lastExitCode ≠ some 0) ∧
      notifyOnRecovery = true) := by
    rintro ⟨⟨known, other⟩, -⟩
    rcases unnotified.2 with none | zero
    · rw [none] at known
      cases known
    · exact other zero
  rw [judge, if_pos succeeded]
  exact if_neg healthy

/-- Calls without a failure notify nothing. -/
theorem ownRun_of_fresh (events : List Event) (isFresh : events.foldl freshAfter true = true) :
    Unnotified ((keyed minIntervalSeconds notifyOnRecovery).ownRun {} events) := by
  induction events using List.reverseRecOn with
  | nil => exact ⟨rfl, .inl rfl⟩
  | append_singleton before e ih =>
      rw [List.foldl_append] at isFresh
      rw [Keyed.ownRun_append_single]
      cases e with
      | shouldNotify result now =>
          obtain ⟨succeeded, earlier⟩ := (Bool.and_eq_true _ _).mp isFresh
          have unnotified := ih earlier
          have judged := judge_of_success minIntervalSeconds notifyOnRecovery succeeded now unnotified
          refine (congrArg (fun judged => Unnotified judged.2) judged).mpr ?_
          exact ⟨unnotified.1, .inr rfl⟩
      | reset jobName => exact ⟨rfl, .inl rfl⟩

/-- **The first failure** is notified exactly when the reading is past the interval. -/
theorem first_notified_iff {result : ExecutionResult} (failed : result.success = false)
    {before : List Event} (isFresh : fresh result.jobName before = true) (now : ℚ) :
    answer minIntervalSeconds notifyOnRecovery before (.shouldNotify result now) = some true ↔
      minIntervalSeconds ≤ now := by
  have new : Unnotified ((run minIntervalSeconds notifyOnRecovery before).getState result.jobName) :=
    (congrArg Unnotified ((keyed minIntervalSeconds notifyOnRecovery).view_run {} before
      result.jobName)).mpr (ownRun_of_fresh minIntervalSeconds notifyOnRecovery _ isFresh)
  rw [answer, step, shouldNotify, judge, if_neg (Bool.eq_false_iff.mp failed)]
  dsimp only
  rw [new.1, sub_zero]
  split
  · rename_i passed
    exact iff_of_true rfl passed
  · rename_i early
    exact iff_of_false (by simp) early

/-- The states of a job in the two runs. -/
def Shifted (c : ℚ) (isFresh : Bool) (s s' : NotifierState) : Prop :=
  if isFresh then s' = s ∧ Unnotified s
  else s' = { s with lastNotifiedAt := s.lastNotifiedAt + c }

/-- **One call** in the two runs. -/
theorem own_shift {c : ℚ} (nonneg : 0 ≤ c) (isFresh : Bool) (s s' : NotifierState) (e : Event)
    (related : Shifted c isFresh s s')
    (late : isFresh = true → ∀ result now, e = .shouldNotify result now → result.success = false →
      minIntervalSeconds ≤ now) :
    (own minIntervalSeconds notifyOnRecovery s' (e.shift c)).1 =
        (own minIntervalSeconds notifyOnRecovery s e).1 ∧
      Shifted c (freshAfter isFresh e) (own minIntervalSeconds notifyOnRecovery s e).2
        (own minIntervalSeconds notifyOnRecovery s' (e.shift c)).2 := by
  cases e with
  | shouldNotify result now =>
      rw [Event.shift, own, own, freshAfter]
      dsimp only
      cases outcome : result.success with
      | true =>
          rw [Bool.true_and]
          cases isFresh with
          | true =>
              obtain ⟨rfl, unnotified⟩ := related
              rw [judge_of_success _ _ outcome _ unnotified, judge_of_success _ _ outcome _ unnotified]
              exact ⟨rfl, rfl, unnotified.1, .inr rfl⟩
          | false =>
              have shifted : s' = { s with lastNotifiedAt := s.lastNotifiedAt + c } := related
              subst shifted
              rw [judge, judge, if_pos outcome, if_pos outcome]
              dsimp only
              split <;> exact ⟨rfl, rfl⟩
      | false =>
          rw [Bool.false_and, judge, judge, if_neg (Bool.eq_false_iff.mp outcome),
            if_neg (Bool.eq_false_iff.mp outcome)]
          dsimp only
          cases isFresh with
          | true =>
              obtain ⟨rfl, unnotified⟩ := related
              have passed := late rfl result now rfl outcome
              have passed' : minIntervalSeconds ≤ now + c :=
                passed.trans (le_add_of_nonneg_right nonneg)
              rw [unnotified.1, sub_zero, sub_zero, if_pos passed, if_pos passed']
              exact ⟨rfl, rfl⟩
          | false =>
              have shifted : s' = { s with lastNotifiedAt := s.lastNotifiedAt + c } := related
              subst shifted
              rw [add_sub_add_right_eq_sub]
              split <;> exact ⟨rfl, rfl⟩
  | reset jobName => exact ⟨rfl, rfl, rfl, .inl rfl⟩

/-- **When the notifier depends on elapsed time alone.** -/
theorem elapsedOnly_iff (events : List Event) :
    ElapsedOnly minIntervalSeconds notifyOnRecovery events ↔
      ∀ before result now after, events = before ++ .shouldNotify result now :: after →
        result.success = false → fresh result.jobName before = true →
        minIntervalSeconds ≤ now := by
  constructor
  · intro elapsedOnly before result now after split failed isFresh
    exact (first_notified_iff minIntervalSeconds notifyOnRecovery failed isFresh now).mp
      (elapsedOnly.first before result now after split failed isFresh)
  · intro late
    constructor
    · intro c nonneg
      have guarded : (keyed minIntervalSeconds notifyOnRecovery).Meets freshAfter
          (fun isFresh e => isFresh = true → ∀ result now, e = .shouldNotify result now →
            result.success = false → minIntervalSeconds ≤ now)
          (fun _ => true) events := by
        rintro before e after split isFresh result now rfl failed
        exact late before result now after split failed isFresh
      exact Keyed.outputs_congr (fun e => by cases e <;> rfl)
        (fun isFresh s s' e => own_shift minIntervalSeconds notifyOnRecovery nonneg isFresh s s' e)
        (fun _ => ⟨rfl, rfl, .inl rfl⟩) guarded
    · intro before result now after split failed isFresh
      exact (first_notified_iff minIntervalSeconds notifyOnRecovery failed isFresh now).mpr
        (late before result now after split failed isFresh)

end

end Notifier

/-- **When alert decisions depend on elapsed time alone**: a run of the throttle exactly
when each first failure comes past the first quiet period of the clock, a run of the
notifier exactly when each comes past the minimum interval. -/
theorem elapsed_only_iff (policy : ThrottlePolicy) (throttled : List AlertThrottle.Event)
    (minIntervalSeconds : ℚ) (notifyOnRecovery : Bool) (notified : List Notifier.Event) :
    (AlertThrottle.ElapsedOnly policy throttled ↔
      ∀ before jobName now after, throttled = before ++ .allow jobName false now :: after →
        AlertThrottle.fresh policy jobName before = true →
        min policy.baseIntervalSeconds policy.maxIntervalSeconds ≤ now) ∧
    (Notifier.ElapsedOnly minIntervalSeconds notifyOnRecovery notified ↔
      ∀ before result now after, notified = before ++ .shouldNotify result now :: after →
        result.success = false → Notifier.fresh result.jobName before = true →
        minIntervalSeconds ≤ now) :=
  ⟨AlertThrottle.elapsedOnly_iff policy throttled,
    Notifier.elapsedOnly_iff minIntervalSeconds notifyOnRecovery notified⟩

/-- A job that failed right after the machine was started. -/
def atBoot : ExecutionResult where
  jobName := "backup"
  exitCode := 1
  stdout := ""
  stderr := ""
  durationSeconds := 1
  startedAt := 0
  finishedAt := 1

/-- Ten seconds after the zero of the clock a first failure is suppressed, on a clock
that shows a day more it is not. -/
theorem first_failure_suppressed :
    (AlertThrottle.answer doubleStar {} [] (.allow "backup" false 10) = some (.ok false) ∧
      AlertThrottle.answer doubleStar {} [] (.allow "backup" false (10 + 86400)) =
        some (.ok true) ∧
      ¬ AlertThrottle.ElapsedOnly {} [.allow "backup" false 10]) ∧
    Notifier.answer 3600 true [] (.shouldNotify atBoot 10) = some false ∧
      Notifier.answer 3600 true [] (.shouldNotify atBoot (10 + 86400)) = some true ∧
      ¬ Notifier.ElapsedOnly 3600 true [.shouldNotify atBoot 10] := by
  have throttled : AlertThrottle.answer doubleStar {} [] (.allow "backup" false 10) =
      some (.ok false) := by
    decide +kernel
  have notified : Notifier.answer 3600 true [] (.shouldNotify atBoot 10) = some false := by
    decide +kernel
  refine ⟨⟨throttled, by decide +kernel, fun elapsedOnly => ?_⟩, notified, by decide +kernel,
    fun elapsedOnly => ?_⟩
  · have first := elapsedOnly.first [] "backup" 10 [] rfl rfl
    rw [throttled] at first
    cases first
  · have first := elapsedOnly.first [] atBoot 10 [] rfl (by decide) rfl
    rw [notified] at first
    cases first

end Cronwatch.Alerts
