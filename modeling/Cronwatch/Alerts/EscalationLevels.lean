/-
# Alerts.EscalationLevels -- which level a streak of failures has

`EscalationPolicy.level_for` sorts the levels by threshold and scans them; the level it
ends with is the highest one reached, of several with one threshold the one listed last
(`levelFor_eq`).  `EscalationTracker` makes the state of a job at the first call about it,
a read included, and keeps the streak and the level in it (`run_getState`).

`levels_of_streak`: what every run of a tracker answers, in terms of its calls alone.
-/
import Cronwatch.Alerts.Escalation
import Cronwatch.Theory.Highest

namespace Cronwatch.Alerts

set_option autoImplicit false

open Cronwatch.Theory

namespace EscalationPolicy

/-- The highest level that so many failures reach. -/
def reached (failures : Nat) (policy : EscalationPolicy) : Option EscalationLevel :=
  highest EscalationLevel.afterFailures (failures : Int) policy.levels

theorem levelFor_eq (failures : Nat) (policy : EscalationPolicy) :
    policy.levelFor failures =
      (policy.reached failures).elim policy.defaultLevel EscalationLevel.name := by
  have scanned := foldl_keep (fun l : EscalationLevel => l.afterFailures ≤ (failures : Int))
    EscalationLevel.name
    (policy.levels.insertionSort fun l l' => l.afterFailures ≤ l'.afterFailures)
    policy.defaultLevel
  rw [lastWith_insertionSort] at scanned
  rw [reached, ← scanned, levelFor]
  simp only [decide_eq_true_eq]

/-- With distinct thresholds the order of the levels does not matter. -/
theorem levelFor_perm {levels levels' : List EscalationLevel} (perm : levels.Perm levels')
    (distinct : (levels.map EscalationLevel.afterFailures).Nodup) (defaultLevel : String)
    (failures : Nat) :
    EscalationPolicy.levelFor failures { levels, defaultLevel } =
      EscalationPolicy.levelFor failures { levels := levels', defaultLevel } := by
  rw [levelFor_eq, levelFor_eq, reached, reached]
  dsimp only
  rw [highest_perm perm distinct]

end EscalationPolicy

namespace EscalationTracker

inductive Call where
  | recordFailure (jobName : String)
  | recordSuccess (jobName : String)
  | consecutiveFailures (jobName : String)
  | currentLevel (jobName : String)
  | escalated (jobName : String)
deriving DecidableEq

inductive Answer where
  | nothing
  | level (name : Option String)
  | count (n : Nat)
  | flag (b : Bool)
deriving DecidableEq

def perform (tracker : EscalationTracker) : Call → Answer × EscalationTracker
  | .recordFailure jobName =>
      let (level, tracker) := tracker.recordFailure jobName
      (.level (some level), tracker)
  | .recordSuccess jobName => (.nothing, tracker.recordSuccess jobName)
  | .consecutiveFailures jobName =>
      let (n, tracker) := tracker.consecutiveFailures jobName
      (.count n, tracker)
  | .currentLevel jobName =>
      let (level, tracker) := tracker.currentLevel jobName
      (.level level, tracker)
  | .escalated jobName =>
      let (b, tracker) := tracker.escalated jobName
      (.flag b, tracker)

/-- The tracker after these calls on a new one. -/
def run (policy : EscalationPolicy) (calls : List Call) : EscalationTracker :=
  calls.foldl (fun tracker call => (tracker.perform call).2) { policy }

/-- What the calls on a new tracker answer. -/
def answers (policy : EscalationPolicy) (calls : List Call) : List Answer :=
  collect (fun before call => some ((run policy before).perform call).1) [] calls

/-- The calls since the last success of the job, the latest first. -/
def sinceSuccess (jobName : String) (calls : List Call) : List Call :=
  calls.reverse.takeWhile fun call => call ≠ .recordSuccess jobName

/-- The failures of the job since its last success. -/
def streak (jobName : String) (calls : List Call) : Nat :=
  (sinceSuccess jobName calls).count (.recordFailure jobName)

theorem run_append_single (policy : EscalationPolicy) (calls : List Call) (call : Call) :
    run policy (calls ++ [call]) = ((run policy calls).perform call).2 := by
  rw [run, List.foldl_append]
  rfl

theorem sinceSuccess_append_single (jobName : String) (calls : List Call) (call : Call) :
    sinceSuccess jobName (calls ++ [call]) =
      if call = .recordSuccess jobName then [] else call :: sinceSuccess jobName calls := by
  rw [sinceSuccess, List.reverse_append, List.reverse_singleton, List.singleton_append,
    List.takeWhile_cons]
  by_cases success : call = .recordSuccess jobName
  · simp [success]
  · simp [success, sinceSuccess]

/-- The streak of the job, given the one before the call. -/
def streakAfter (jobName : String) (n : Nat) (call : Call) : Nat :=
  if call = .recordSuccess jobName then 0
  else if call = .recordFailure jobName then n + 1 else n

theorem streak_append_single (jobName : String) (calls : List Call) (call : Call) :
    streak jobName (calls ++ [call]) = streakAfter jobName (streak jobName calls) call := by
  rw [streak, sinceSuccess_append_single, streakAfter]
  by_cases success : call = .recordSuccess jobName
  · rw [if_pos success, if_pos success, List.count_nil]
  · rw [if_neg success, if_neg success, List.count_cons, streak]
    by_cases failure : call = .recordFailure jobName
    · simp [failure]
    · simp [failure]

/-- Without a success of the job its streak does not get shorter. -/
theorem streak_le_append (jobName : String) (calls more : List Call)
    (unbroken : .recordSuccess jobName ∉ more) :
    streak jobName calls ≤ streak jobName (calls ++ more) := by
  induction more using List.reverseRecOn with
  | nil => rw [List.append_nil]
  | append_singleton before call ih =>
      rw [List.mem_append, List.mem_singleton, not_or] at unbroken
      have other : call ≠ .recordSuccess jobName := fun same => unbroken.2 same.symm
      have before_ := ih unbroken.1
      rw [← List.append_assoc, streak_append_single, streakAfter, if_neg other]
      split <;> omega

/-! ## The state of a job -/

/-- What a job has in the tracker after so many failures in a row. -/
def stateOf (policy : EscalationPolicy) (n : Nat) : EscalationState where
  consecutiveFailures := n
  lastLevel := if n = 0 then none else some (policy.levelFor n)

theorem perform_policy (tracker : EscalationTracker) (call : Call) :
    (tracker.perform call).2.policy = tracker.policy := by
  cases call <;> rfl

/-- **One call** moves the streak of its job, and leaves every other state as it is. -/
theorem perform_getState (tracker : EscalationTracker) (call : Call) (jobName : String) {n : Nat}
    (state : tracker.getState jobName = stateOf tracker.policy n) :
    (tracker.perform call).2.getState jobName =
      stateOf tracker.policy (streakAfter jobName n call) := by
  cases call with
  | recordFailure job =>
      show (tracker.put job _).getState jobName = _
      rw [getState_put]
      by_cases same : jobName = job
      · subst same
        simp [state, stateOf, streakAfter, nextLevel]
      · have other : ¬ job = jobName := fun eq => same eq.symm
        rw [if_neg same, state]
        simp [streakAfter, other]
  | recordSuccess job =>
      show (tracker.put job _).getState jobName = _
      rw [getState_put]
      by_cases same : jobName = job
      · subst same
        simp [stateOf, streakAfter]
      · have other : ¬ job = jobName := fun eq => same eq.symm
        rw [if_neg same, state]
        simp [streakAfter, other]
  | consecutiveFailures job | currentLevel job | escalated job =>
      show (tracker.put job (tracker.getState job)).getState jobName = _
      rw [getState_put]
      by_cases same : jobName = job
      · subst same
        rw [if_pos rfl, state]
        simp [streakAfter]
      · rw [if_neg same, state]
        simp [streakAfter]

theorem run_policy (policy : EscalationPolicy) (calls : List Call) :
    (run policy calls).policy = policy := by
  induction calls using List.reverseRecOn with
  | nil => rfl
  | append_singleton before call ih => rw [run_append_single, perform_policy, ih]

/-- **The state of a job** in any run is that of its streak. -/
theorem run_getState (policy : EscalationPolicy) (calls : List Call) (jobName : String) :
    (run policy calls).getState jobName = stateOf policy (streak jobName calls) := by
  induction calls using List.reverseRecOn with
  | nil => rfl
  | append_singleton before call ih =>
      have moved := perform_getState (run policy before) call jobName
        (n := streak jobName before) (by rw [ih, run_policy])
      rw [run_append_single, moved, run_policy, streak_append_single]

/-! ## What a tracker answers -/

/-- What a call answers, from the streak of its job before it. -/
def answerOf (policy : EscalationPolicy) (calls : List Call) : Call → Answer
  | .recordFailure jobName => .level (some (policy.levelFor (streak jobName calls + 1 : Nat)))
  | .recordSuccess _ => .nothing
  | .consecutiveFailures jobName => .count (streak jobName calls)
  | .currentLevel jobName => .level (stateOf policy (streak jobName calls)).lastLevel
  | .escalated jobName =>
      .flag (decide ((stateOf policy (streak jobName calls)).lastLevel.isSome ∧
        (stateOf policy (streak jobName calls)).lastLevel ≠ some policy.defaultLevel))

theorem recordFailure_answer (policy : EscalationPolicy) (calls : List Call) (jobName : String) :
    ((run policy calls).recordFailure jobName).1 =
      policy.levelFor (streak jobName calls + 1 : Nat) := by
  show (run policy calls).policy.levelFor
    (((run policy calls).getState jobName).consecutiveFailures + 1 : Nat) = _
  rw [run_policy, run_getState]
  rfl

theorem currentLevel_answer (policy : EscalationPolicy) (calls : List Call) (jobName : String) :
    ((run policy calls).currentLevel jobName).1 =
      (stateOf policy (streak jobName calls)).lastLevel := by
  rw [currentLevel, run_getState]

theorem perform_answer (policy : EscalationPolicy) (calls : List Call) (call : Call) :
    ((run policy calls).perform call).1 = answerOf policy calls call := by
  cases call with
  | recordFailure jobName =>
      show Answer.level (some ((run policy calls).recordFailure jobName).1) = _
      rw [recordFailure_answer, answerOf]
  | recordSuccess _ => rfl
  | consecutiveFailures jobName =>
      show Answer.count ((run policy calls).getState jobName).consecutiveFailures = _
      rw [run_getState]
      rfl
  | currentLevel jobName =>
      show Answer.level ((run policy calls).currentLevel jobName).1 = _
      rw [currentLevel_answer, answerOf]
  | escalated jobName =>
      have level := currentLevel_answer policy calls jobName
      have default_ : ((run policy calls).currentLevel jobName).2.policy.defaultLevel =
          policy.defaultLevel := congrArg EscalationPolicy.defaultLevel (run_policy policy calls)
      rw [answerOf, perform, escalated]
      dsimp only
      rw [level, default_]

/-- Two policies that name every streak alike answer alike. -/
theorem answers_congr {policy policy' : EscalationPolicy}
    (levels : ∀ n : Nat, policy.levelFor n = policy'.levelFor n)
    (default_ : policy.defaultLevel = policy'.defaultLevel) (calls : List Call) :
    answers policy calls = answers policy' calls := by
  have states : stateOf policy = stateOf policy' := by
    funext n
    rw [stateOf, stateOf, levels]
  have same : ∀ before call, ((run policy before).perform call).1 =
      ((run policy' before).perform call).1 := by
    intro before call
    rw [perform_answer, perform_answer]
    cases call <;> simp only [answerOf, states, levels, default_]
  rw [answers, answers]
  simp only [same]

/-- **The levels of a tracker** are those of the streaks of its calls. -/
structure TrueLevels (policy : EscalationPolicy) : Prop where
  failure : ∀ calls jobName,
    (∃ level, IsHighest EscalationLevel.afterFailures (streak jobName calls + 1 : Nat)
        policy.levels level ∧ ((run policy calls).recordFailure jobName).1 = level.name) ∨
      (∀ level ∈ policy.levels, ((streak jobName calls + 1 : Nat) : Int) < level.afterFailures) ∧
        ((run policy calls).recordFailure jobName).1 = policy.defaultLevel
  permuted : ∀ levels, policy.levels.Perm levels →
    (policy.levels.map EscalationLevel.afterFailures).Nodup →
      ∀ calls, answers { policy with levels } calls = answers policy calls
  grows : ∀ calls more jobName level, .recordSuccess jobName ∉ more →
    IsHighest EscalationLevel.afterFailures (streak jobName calls) policy.levels level →
      ∃ level', IsHighest EscalationLevel.afterFailures (streak jobName (calls ++ more))
        policy.levels level' ∧ level.afterFailures ≤ level'.afterFailures
  noLevel : ∀ calls jobName, ((run policy calls).currentLevel jobName).1 = none ↔
    .recordFailure jobName ∉ sinceSuccess jobName calls

theorem levelFor_isHighest (policy : EscalationPolicy) (failures : Nat) :
    (∃ level, IsHighest EscalationLevel.afterFailures (failures : Int) policy.levels level ∧
        policy.levelFor failures = level.name) ∨
      (∀ level ∈ policy.levels, (failures : Int) < level.afterFailures) ∧
        policy.levelFor failures = policy.defaultLevel := by
  rw [policy.levelFor_eq]
  cases found : policy.reached failures with
  | none => exact .inr ⟨(highest_eq_none_iff _).mp found, rfl⟩
  | some level => exact .inl ⟨level, highest_isHighest found, rfl⟩

theorem levels_of_streak (policy : EscalationPolicy) : TrueLevels policy where
  failure := by
    intro calls jobName
    rw [recordFailure_answer]
    exact levelFor_isHighest policy (streak jobName calls + 1)
  permuted := by
    intro levels perm distinct calls
    have named : ∀ n : Nat, policy.levelFor n =
        EscalationPolicy.levelFor n { policy with levels } :=
      EscalationPolicy.levelFor_perm perm distinct policy.defaultLevel
    exact (answers_congr named rfl calls).symm
  grows := by
    intro calls more jobName level unbroken is
    have longer : (streak jobName calls : Int) ≤ streak jobName (calls ++ more) := by
      exact_mod_cast streak_le_append jobName calls more unbroken
    exact is.exists_key_le longer
  noLevel := by
    intro calls jobName
    rw [currentLevel_answer, ← List.count_eq_zero]
    show (if streak jobName calls = 0 then none else some _) = none ↔ streak jobName calls = 0
    simp

end EscalationTracker

end Cronwatch.Alerts
