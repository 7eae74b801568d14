/-
# Alerts.Throttle -- an alert, then quiet periods that grow

`AlertThrottle` keeps per job the time of its last alert and the number of alerts since
the state was cleared.  A failure is alerted when the quiet period after that many
alerts is over.  The power in `intervalFor` is a parameter, which may raise.

Which alerts were allowed can be read off the calls and their answers: `episode` lists
the alerts of a job since its state was cleared, and `state_run` says that the throttle
knows their number and the last of them.  With exact powers this gives the law of the
quiet periods (`backoff_exact`).  With powers of floats a call raises exactly when the
power after so many alerts is too large (`returns_iff`), and a job that fails for ever
gets there under every policy that backs off at all (`never_raises_iff`).
-/
import Cronwatch.Runtime.FloatPow
import Cronwatch.Theory.Dict
import Cronwatch.Theory.Keyed
import Mathlib.Algebra.Order.Archimedean.Basic
import Mathlib.Data.Rat.Floor
import Mathlib.Tactic.Ring

namespace Cronwatch.Alerts

set_option autoImplicit false

open Cronwatch.Theory Cronwatch.Runtime

structure JobThrottleState where
  lastAlertAt : ℚ := 0
  consecutiveAlerts : Nat := 0
deriving DecidableEq

structure ThrottlePolicy where
  baseIntervalSeconds : ℚ := 300
  backoffMultiplier : ℚ := 2
  maxIntervalSeconds : ℚ := 3600
  resetOnSuccess : Bool := true
deriving DecidableEq

def ThrottlePolicy.intervalFor (pow : Power) (consecutive : Nat) (policy : ThrottlePolicy) :
    Except PyException ℚ :=
  match pow policy.backoffMultiplier (consecutive - 1) with
  | .error e => .error e
  | .ok power => .ok (min (policy.baseIntervalSeconds * power) policy.maxIntervalSeconds)

structure AlertThrottle (policy : ThrottlePolicy) where
  states : Dict String JobThrottleState := .empty

namespace AlertThrottle

variable {policy : ThrottlePolicy}

/-- The state `_state(job_name)` finds or creates. -/
def state (t : AlertThrottle policy) (jobName : String) : JobThrottleState :=
  (t.states.get? jobName).getD {}

def put (t : AlertThrottle policy) (jobName : String) (state : JobThrottleState) :
    AlertThrottle policy where
  states := t.states.set jobName state

def reset (jobName : String) (t : AlertThrottle policy) : AlertThrottle policy where
  states := t.states.erase jobName

def allow (pow : Power) (now : ℚ) (jobName : String) (success : Bool) (t : AlertThrottle policy) :
    Except PyException Bool × AlertThrottle policy :=
  let state := t.state jobName
  let t := t.put jobName state
  if success then
    if policy.resetOnSuccess then (.ok false, t.reset jobName) else (.ok false, t)
  else
    match policy.intervalFor pow state.consecutiveAlerts with
    | .error e => (.error e, t)
    | .ok required =>
        let elapsed := now - state.lastAlertAt
        if required ≤ elapsed then
          (.ok true, t.put jobName
            { lastAlertAt := now, consecutiveAlerts := state.consecutiveAlerts + 1 })
        else (.ok false, t)

/-- A call, with the reading of the clock at the time. -/
inductive Event where
  | allow (jobName : String) (success : Bool) (now : ℚ)
  | reset (jobName : String)
deriving DecidableEq

def Event.jobName : Event → String
  | .allow jobName _ _ | .reset jobName => jobName

/-- What `allow` answers or raises; `reset` answers nothing. -/
abbrev Answer := Option (Except PyException Bool)

def step (pow : Power) (t : AlertThrottle policy) : Event → Answer × AlertThrottle policy
  | .allow jobName success now =>
      (some (t.allow pow now jobName success).1, (t.allow pow now jobName success).2)
  | .reset jobName => (none, t.reset jobName)

/-! ## One job at a time -/

/-- A call on the state of its job. -/
def own (pow : Power) (policy : ThrottlePolicy) (state : JobThrottleState) :
    Event → Answer × JobThrottleState
  | .allow _ true _ => (some (.ok false), if policy.resetOnSuccess then {} else state)
  | .allow _ false now =>
      match policy.intervalFor pow state.consecutiveAlerts with
      | .error e => (some (.error e), state)
      | .ok required =>
          if required ≤ now - state.lastAlertAt then
            (some (.ok true),
              { lastAlertAt := now, consecutiveAlerts := state.consecutiveAlerts + 1 })
          else (some (.ok false), state)
  | .reset _ => (none, {})

@[simp] theorem state_put (t : AlertThrottle policy) (jobName : String) (s : JobThrottleState)
    (job : String) : (t.put jobName s).state job = if job = jobName then s else t.state job := by
  simp only [state, put, Dict.get?_set]
  split <;> rfl

@[simp] theorem state_reset (t : AlertThrottle policy) (jobName job : String) :
    (t.reset jobName).state job = if job = jobName then {} else t.state job := by
  simp only [state, reset, Dict.get?_erase]
  split <;> rfl

theorem step_answer (pow : Power) (t : AlertThrottle policy) (e : Event) :
    (t.step pow e).1 = (own pow policy (t.state e.jobName) e).1 := by
  cases e with
  | allow jobName success now =>
      rw [step, allow, own.eq_def, Event.jobName]
      cases success with
      | true =>
          dsimp only
          rw [if_pos rfl]
          split <;> rfl
      | false =>
          dsimp only
          rw [if_neg Bool.false_ne_true]
          split
          · rfl
          · split <;> rfl
  | reset jobName => rfl

theorem step_state (pow : Power) (t : AlertThrottle policy) (e : Event) (job : String) :
    (t.step pow e).2.state job =
      if job = e.jobName then (own pow policy (t.state e.jobName) e).2 else t.state job := by
  cases e with
  | allow jobName success now =>
      have twice : ∀ s s', ((t.put jobName s).put jobName s').state job =
          if job = jobName then s' else t.state job := by
        intro s s'
        by_cases same : job = jobName <;> simp [same]
      have cleared : ∀ s, ((t.put jobName s).reset jobName).state job =
          if job = jobName then {} else t.state job := by
        intro s
        by_cases same : job = jobName <;> simp [same]
      rw [step, allow, own.eq_def, Event.jobName]
      cases success with
      | true =>
          dsimp only
          rw [if_pos rfl]
          split
          · exact cleared _
          · exact state_put t jobName _ job
      | false =>
          dsimp only
          rw [if_neg Bool.false_ne_true]
          split
          · exact state_put t jobName _ job
          · split
            · exact twice _ _
            · exact state_put t jobName _ job
  | reset jobName => exact state_reset t jobName job

def keyed (pow : Power) (policy : ThrottlePolicy) :
    Keyed (AlertThrottle policy) Event Answer String JobThrottleState where
  step := step pow
  key := Event.jobName
  view := state
  own := own pow policy
  answer_eq := step_answer pow
  view_eq := by
    intro t e job
    rw [step_state]
    split
    · rename_i same
      rw [same]
    · rfl

section Laws

variable (pow : Power) (policy : ThrottlePolicy)

/-- A new throttle after these calls. -/
abbrev run (events : List Event) : AlertThrottle policy := (keyed pow policy).run {} events

/-- The answer to one more call. -/
abbrev answer (events : List Event) (e : Event) : Answer :=
  ((run pow policy events).step pow e).1

/-- The call clears the state of the job. -/
def Event.clears (policy : ThrottlePolicy) (jobName : String) : Event → Bool
  | .allow job success _ => job = jobName ∧ success ∧ policy.resetOnSuccess
  | .reset job => job = jobName

def Answer.allowed : Answer → Bool
  | some (.ok allowed) => allowed
  | _ => false

/-- The alerts of the job since its state was cleared, given those before a call. -/
def alertsAfter (jobName : String) (alerts : List ℚ) : Event × Answer → List ℚ
  | (.allow job success now, a) =>
      if job ≠ jobName then alerts
      else if success then if policy.resetOnSuccess then [] else alerts
      else if a.allowed then alerts ++ [now] else alerts
  | (.reset job, _) => if job ≠ jobName then alerts else []

/-- The alerts of the job since its state was cleared, read off calls and answers. -/
def episode (jobName : String) (events : List Event) : List ℚ :=
  ((keyed pow policy).log {} events).foldl (alertsAfter policy jobName) []

/-- The state that belongs to a list of alerts. -/
def stateOf (alerts : List ℚ) : JobThrottleState where
  lastAlertAt := alerts.getLastD 0
  consecutiveAlerts := alerts.length

theorem episode_append_single (jobName : String) (events : List Event) (e : Event) :
    episode pow policy jobName (events ++ [e]) =
      alertsAfter policy jobName (episode pow policy jobName events)
        (e, answer pow policy events e) := by
  rw [episode, Keyed.log_append_single, List.foldl_append]
  rfl

/-- **One call** on the state of a list of alerts. -/
theorem own_stateOf (alerts : List ℚ) (e : Event) : (own pow policy (stateOf alerts) e).2 =
    stateOf (alertsAfter policy e.jobName alerts
      (e, (own pow policy (stateOf alerts) e).1)) := by
  cases e with
  | allow job success now =>
      rw [alertsAfter, Event.jobName, if_neg (not_not.mpr rfl)]
      cases success with
      | true =>
          rw [own, if_pos rfl]
          split <;> rfl
      | false =>
          rw [own, if_neg Bool.false_ne_true]
          split
          · rfl
          · split
            · simp [Answer.allowed, stateOf]
            · rfl
  | reset job => simp [own, alertsAfter, Event.jobName, stateOf]

theorem alertsAfter_of_ne {jobName : String} {e : Event} (other : e.jobName ≠ jobName)
    (alerts : List ℚ) (a : Answer) : alertsAfter policy jobName alerts (e, a) = alerts := by
  cases e with
  | allow job success now => exact if_pos other
  | reset job => exact if_pos other

/-- **What the throttle knows**: the number of alerts of the episode, and the last. -/
theorem state_run (jobName : String) (events : List Event) :
    (run pow policy events).state jobName = stateOf (episode pow policy jobName events) := by
  induction events using List.reverseRecOn with
  | nil => rfl
  | append_singleton before e ih =>
      have step : (run pow policy (before ++ [e])).state jobName =
          if jobName = e.jobName then (own pow policy ((run pow policy before).state e.jobName) e).2
          else (run pow policy before).state jobName := by
        rw [run, Keyed.run_append_single]
        exact step_state pow _ e jobName
      rw [step, episode_append_single]
      split
      · rename_i here
        subst here
        rw [ih, own_stateOf, answer, step_answer, ih]
      · rename_i other
        rw [ih, alertsAfter_of_ne policy fun same => other same.symm]

/-- Each call alerts once at most. -/
theorem consecutiveAlerts_le (jobName : String) (events : List Event) :
    ((run pow policy events).state jobName).consecutiveAlerts ≤ events.length := by
  rw [state_run]
  show (episode pow policy jobName events).length ≤ _
  induction events using List.reverseRecOn with
  | nil => exact le_rfl
  | append_singleton before e ih =>
      have once : ∀ alerts : List ℚ, ∀ a,
          (alertsAfter policy jobName alerts (e, a)).length ≤ alerts.length + 1 := by
        intro alerts a
        cases e with
        | allow job success now =>
            rw [alertsAfter]
            split_ifs <;> simp
        | reset job =>
            rw [alertsAfter]
            split_ifs <;> simp
      rw [episode_append_single, List.length_append, List.length_singleton]
      exact (once _ _).trans (Nat.succ_le_succ ih)

end Laws

/-! ## The quiet periods -/

section Quiet

variable (policy : ThrottlePolicy)

/-- The quiet period after `k` alerts, in exact arithmetic. -/
def quiet (k : Nat) : ℚ :=
  min (policy.baseIntervalSeconds * policy.backoffMultiplier ^ (k - 1)) policy.maxIntervalSeconds

variable {policy}

theorem quiet_mono (base : 0 ≤ policy.baseIntervalSeconds) (growing : 1 ≤ policy.backoffMultiplier)
    {k k' : Nat} (le : k ≤ k') : quiet policy k ≤ quiet policy k' := by
  have power : policy.backoffMultiplier ^ (k - 1) ≤ policy.backoffMultiplier ^ (k' - 1) :=
    pow_le_pow_right₀ growing (Nat.sub_le_sub_right le 1)
  exact min_le_min_right _ (mul_le_mul_of_nonneg_left power base)

/-- A call that does not clear the state of the job keeps its alerts. -/
theorem alertsAfter_grows {jobName : String} {e : Event} (stays : e.clears policy jobName = false)
    (alerts : List ℚ) (a : Answer) : alerts <+: alertsAfter policy jobName alerts (e, a) := by
  cases e with
  | allow job success now =>
      rw [alertsAfter]
      split
      · exact List.prefix_rfl
      · rename_i here
        split
        · rename_i succeeded
          have keeps : ¬ policy.resetOnSuccess = true := by
            simpa [Event.clears, not_not.mp here, succeeded] using stays
          rw [if_neg keeps]
        · split
          · exact List.prefix_append alerts [now]
          · exact List.prefix_rfl
  | reset job =>
      have other : job ≠ jobName := by simpa [Event.clears] using stays
      rw [alertsAfter, if_pos other]

theorem episode_grows (pow : Power) {jobName : String} (before : List Event)
    {middle : List Event} (stays : ∀ e ∈ middle, e.clears policy jobName = false) :
    episode pow policy jobName before <+: episode pow policy jobName (before ++ middle) := by
  induction middle using List.reverseRecOn with
  | nil => rw [List.append_nil]
  | append_singleton earlier e ih =>
      have grown := ih fun e' member => stays e' (List.mem_append_left _ member)
      rw [← List.append_assoc, episode_append_single]
      exact grown.trans (alertsAfter_grows (stays e (by simp)) _ _)

/-- A suppressed failure leaves the state as it was. -/
theorem own_of_suppressed {pow : Power} {state : JobThrottleState} {jobName : String} {now : ℚ}
    (suppressed : (own pow policy state (.allow jobName false now)).1 = some (.ok false)) :
    (own pow policy state (.allow jobName false now)).2 = state := by
  rw [own] at suppressed ⊢
  split
  · rfl
  · rename_i required known
    rw [known] at suppressed
    dsimp only at suppressed ⊢
    split
    · rename_i passed
      rw [if_pos passed] at suppressed
      cases suppressed
    · rfl

/-- **The exact back-off.**  After `k ≥ 1` alerts of an episode a failure is alerted
exactly when the quiet period since the last of them is over; within an episode the
quiet periods do not shrink or exceed the maximum; a suppressed failure has no effect on
any later answer; and neither have the calls for other jobs. -/
theorem backoff_exact (base : 0 ≤ policy.baseIntervalSeconds)
    (growing : 1 ≤ policy.backoffMultiplier) (jobName : String) (before : List Event) :
    (∀ now k last, 1 ≤ k → (episode exactPow policy jobName before).length = k →
      (episode exactPow policy jobName before).getLast? = some last →
      answer exactPow policy before (.allow jobName false now) =
        some (.ok (decide (min (policy.baseIntervalSeconds * policy.backoffMultiplier ^ (k - 1))
          policy.maxIntervalSeconds ≤ now - last)))) ∧
    (∀ middle, (∀ e ∈ middle, e.clears policy jobName = false) →
      quiet policy (episode exactPow policy jobName before).length ≤
          quiet policy (episode exactPow policy jobName (before ++ middle)).length ∧
        quiet policy (episode exactPow policy jobName (before ++ middle)).length ≤
          policy.maxIntervalSeconds) ∧
    (∀ now after, answer exactPow policy before (.allow jobName false now) = some (.ok false) →
      (keyed exactPow policy).outputs
          (run exactPow policy (before ++ [.allow jobName false now])) after =
        (keyed exactPow policy).outputs (run exactPow policy before) after) ∧
    ∀ e, e.jobName = jobName → answer exactPow policy before e =
      answer exactPow policy (before.filter fun e' => e'.jobName = jobName) e := by
  refine ⟨?_, ?_, ?_, ?_⟩
  · intro now k last _ count final
    have known : stateOf (episode exactPow policy jobName before) = ⟨last, k⟩ := by
      rw [stateOf, count, List.getLastD_eq_getLast?, final]
      rfl
    rw [answer, step_answer, Event.jobName, state_run, known, own, ThrottlePolicy.intervalFor,
      exactPow]
    dsimp only
    split
    · rename_i passed
      rw [decide_eq_true passed]
    · rename_i early
      rw [decide_eq_false early]
  · intro middle stays
    have longer := (episode_grows exactPow before stays).length_le
    exact ⟨quiet_mono base growing longer, min_le_right _ _⟩
  · intro now after suppressed
    refine Keyed.outputs_of_views (fun job => ?_) after
    rw [answer, step_answer] at suppressed
    rw [run, Keyed.run_append_single]
    refine (step_state exactPow _ _ job).trans ?_
    split
    · rename_i here
      rw [here]
      exact own_of_suppressed suppressed
    · rfl
  · rintro e rfl
    exact (keyed exactPow policy).answer_own {} before e

/-- A job of one minute's quiet, alerted at 60 and at 121 seconds. -/
def minutely : ThrottlePolicy where
  baseIntervalSeconds := 60

def twoAlerts : List Event := [.allow "backup" false 60, .allow "backup" false 121]

/-- The third alert is due after two minutes. -/
theorem third_alert_due :
    answer exactPow minutely twoAlerts (.allow "backup" false 241) =
      some (.ok (decide (min (60 * 2 ^ (2 - 1)) 3600 ≤ (241 - 121 : ℚ)))) :=
  (backoff_exact (show 0 ≤ minutely.baseIntervalSeconds by decide)
    (show 1 ≤ minutely.backoffMultiplier by decide) "backup" twoAlerts).1 241 2 121
    (by decide) (by decide +kernel) (by decide +kernel)

end Quiet

/-! ## Powers that are too large -/

section Overflow

/-- No call of the run raises. -/
def Returns (pow : Power) (policy : ThrottlePolicy) (events : List Event) : Prop :=
  ∀ a ∈ (keyed pow policy).outputs {} events, ∀ e, a ≠ some (.error e)

theorem intervalFor_doubleStar (growing : 1 ≤ policy.backoffMultiplier) (consecutive : Nat) :
    (∃ e, policy.intervalFor doubleStar consecutive = .error e) ↔
      2 ^ 1024 ≤ policy.backoffMultiplier ^ (consecutive - 1) := by
  rw [ThrottlePolicy.intervalFor, doubleStar, floatPow_of_one_le _ growing]
  by_cases small : policy.backoffMultiplier ^ (consecutive - 1) < 2 ^ 1024
  · rw [if_pos small]
    exact iff_of_false (fun ⟨_, impossible⟩ => by cases impossible) (not_le.mpr small)
  · rw [if_neg small]
    exact iff_of_true ⟨_, rfl⟩ (not_lt.mp small)

/-- Only a failure can raise, when its quiet period cannot be computed. -/
theorem own_raises_iff (pow : Power) (state : JobThrottleState) (e : Event) :
    (∃ raised, (own pow policy state e).1 = some (.error raised)) ↔
      (∃ jobName now, e = .allow jobName false now) ∧
        ∃ raised, policy.intervalFor pow state.consecutiveAlerts = .error raised := by
  cases e with
  | allow jobName success now =>
      cases success with
      | true => simp [own]
      | false =>
          rw [own]
          split
          · rename_i raised failed
            simp [failed]
          · rename_i required known
            simp only [known, reduceCtorEq, exists_false, and_false, iff_false]
            split <;> simp
  | reset jobName => simp [own]

/-- **When a run raises nothing**: exactly when at every failure the power for the alerts
so far is not too large. -/
theorem returns_iff (growing : 1 ≤ policy.backoffMultiplier) (events : List Event) :
    Returns doubleStar policy events ↔
      ∀ before jobName now after, events = before ++ .allow jobName false now :: after →
        policy.backoffMultiplier ^
          (((run doubleStar policy before).state jobName).consecutiveAlerts - 1) < 2 ^ 1024 := by
  constructor
  · rintro returns before jobName now after rfl
    by_contra large
    obtain ⟨raised, failed⟩ := (intervalFor_doubleStar growing _).mpr (not_lt.mp large)
    obtain ⟨e, answered⟩ := (own_raises_iff doubleStar
      ((run doubleStar policy before).state jobName) (.allow jobName false now)).mpr
        ⟨⟨jobName, now, rfl⟩, raised, failed⟩
    refine returns (some (.error e)) ?_ e rfl
    rw [Keyed.mem_outputs_iff]
    exact ⟨before, _, after, rfl, (step_answer _ _ _).trans answered⟩
  · rintro small a member e rfl
    rw [Keyed.mem_outputs_iff] at member
    obtain ⟨before, call, after, split, answered⟩ := member
    obtain ⟨⟨jobName, now, rfl⟩, failed⟩ := (own_raises_iff doubleStar _ call).mp
      ⟨e, (step_answer _ _ _).symm.trans answered⟩
    have large := (intervalFor_doubleStar growing _).mp failed
    exact absurd (small before jobName now after split) (not_lt.mpr large)

/-- A job that fails once in every longest quiet period. -/
def steady (policy : ThrottlePolicy) (jobName : String) : Nat → List Event
  | 0 => []
  | n + 1 => steady policy jobName n ++
      [.allow jobName false ((n + 1 : Nat) * |policy.maxIntervalSeconds|)]

/-- Every failure of a steady run is alerted, as long as the powers are not too large. -/
theorem state_steady (growing : 1 ≤ policy.backoffMultiplier) (jobName : String) (n : Nat)
    (small : ∀ k < n, policy.backoffMultiplier ^ (k - 1) < 2 ^ 1024) :
    (run doubleStar policy (steady policy jobName n)).state jobName =
      { lastAlertAt := n * |policy.maxIntervalSeconds|, consecutiveAlerts := n } := by
  induction n with
  | zero => simp [steady, run, state]
  | succ n ih =>
      have before := ih fun k less => small k (Nat.lt_succ_of_lt less)
      have power : doubleStar policy.backoffMultiplier (n - 1) =
          .ok (policy.backoffMultiplier ^ (n - 1)) := by
        rw [doubleStar, floatPow_of_one_le _ growing, if_pos (small n (Nat.lt_succ_self n))]
      have elapsed : min (policy.baseIntervalSeconds * policy.backoffMultiplier ^ (n - 1))
          policy.maxIntervalSeconds ≤
          ((n + 1 : Nat) : ℚ) * |policy.maxIntervalSeconds| - n * |policy.maxIntervalSeconds| :=
        calc _ ≤ policy.maxIntervalSeconds := min_le_right _ _
          _ ≤ |policy.maxIntervalSeconds| := le_abs_self _
          _ = _ := by push_cast; ring
      rw [steady, run, Keyed.run_append_single]
      refine (step_state doubleStar _ _ jobName).trans ?_
      rw [Event.jobName, if_pos rfl, before, own, ThrottlePolicy.intervalFor, power]
      dsimp only
      rw [if_pos elapsed]

/-- **Which policies never raise**, however long a job fails: those that do not back off. -/
theorem never_raises_iff (growing : 1 ≤ policy.backoffMultiplier) :
    (∀ events, Returns doubleStar policy events) ↔ policy.backoffMultiplier = 1 := by
  constructor
  · intro returns
    by_contra other
    have above : 1 < policy.backoffMultiplier := lt_of_le_of_ne growing (Ne.symm other)
    obtain ⟨n, large⟩ := pow_unbounded_of_one_lt (2 ^ 1024 : ℚ) above
    have small : ∀ k, policy.backoffMultiplier ^ (k - 1) < 2 ^ 1024 := by
      intro k
      induction k using Nat.strong_induction_on with
      | _ k ih =>
          have next := (returns_iff growing _).mp (returns (steady policy "" (k + 1)))
            (steady policy "" k) "" _ [] rfl
          rwa [state_steady growing "" k fun j less => ih j less] at next
    exact absurd (small (n + 1)) (not_lt.mpr large.le)
  · intro flat events
    rw [returns_iff growing, flat]
    intro _ _ _ _ _
    rw [one_pow]
    exact one_lt_pow₀ one_lt_two (by decide)

end Overflow

end AlertThrottle

end Cronwatch.Alerts
