/-
# Jobs.Quota -- how often a job may run within a rolling window

`QuotaTracker` keeps a list of time stamps per job, in the order in which they are recorded,
and filters it where it counts.  A policy with `max_runs` 0 for a job does not limit it, and
its list is never filtered.

`Tracks` relates the lists to everything that was ever recorded, and `Tracks.check_iff` and
`Tracks.remaining_eq` say what the tracker answers in terms of that.
-/
import Cronwatch.Runtime.Python
import Cronwatch.Theory.Dict
import Cronwatch.Theory.SlidingWindow
import Mathlib.Algebra.Order.Group.Int

namespace Cronwatch.Jobs

set_option autoImplicit false

open Cronwatch.Theory Cronwatch.Runtime

/-- The keys of an entry of `per_job` that are read. -/
structure QuotaOverride where
  maxRuns : Option Int := none
  windowSeconds : Option Int := none

structure QuotaPolicy where
  defaultMaxRuns : Int := 0
  defaultWindowSeconds : Int := 3600
  perJob : Dict String QuotaOverride := .empty

namespace QuotaPolicy

/-- `self.per_job.get(job_name, {})`. -/
def override (policy : QuotaPolicy) (jobName : String) : QuotaOverride :=
  (policy.perJob.get? jobName).getD {}

def maxRunsFor (jobName : String) (policy : QuotaPolicy) : Int :=
  (policy.override jobName).maxRuns.getD policy.defaultMaxRuns

def windowSecondsFor (jobName : String) (policy : QuotaPolicy) : Int :=
  (policy.override jobName).windowSeconds.getD policy.defaultWindowSeconds

/-- The window as a difference of clock readings. -/
def window (policy : QuotaPolicy) (jobName : String) : Int :=
  seconds (policy.windowSecondsFor jobName)

end QuotaPolicy

structure QuotaExceededError where
  jobName : String
  maxRuns : Int
  windowSeconds : Int
deriving DecidableEq

def QuotaExceededError.message (e : QuotaExceededError) : String :=
  s!"Job '{e.jobName}' has reached its quota of {e.maxRuns} runs " ++
    s!"within the last {e.windowSeconds}s"

structure QuotaTracker (policy : QuotaPolicy) where
  windows : Dict String (List DateTime) := .empty

namespace QuotaTracker

variable {policy : QuotaPolicy}

/-- The time stamps of `_window(job_name)`. -/
def timestamps (tracker : QuotaTracker policy) (jobName : String) : List DateTime :=
  (tracker.windows.get? jobName).getD []

def store (tracker : QuotaTracker policy) (jobName : String) (timestamps : List DateTime) :
    QuotaTracker policy where
  windows := tracker.windows.set jobName timestamps

/-- `_window(job_name).evict_before(ts - timedelta(seconds=window_secs))`. -/
def evict (now : DateTime) (jobName : String) (tracker : QuotaTracker policy) :
    QuotaTracker policy :=
  tracker.store jobName
    ((tracker.timestamps jobName).filter fun t => now - policy.window jobName ≤ t)

def check (jobName : String) (now : DateTime) (tracker : QuotaTracker policy) :
    Except QuotaExceededError Unit × QuotaTracker policy :=
  let maxRuns := policy.maxRunsFor jobName
  if maxRuns = 0 then (.ok (), tracker)
  else
    let tracker := tracker.evict now jobName
    if maxRuns ≤ (tracker.timestamps jobName).length then
      (.error { jobName, maxRuns, windowSeconds := policy.windowSecondsFor jobName }, tracker)
    else (.ok (), tracker)

def record (jobName : String) (now : DateTime) (tracker : QuotaTracker policy) :
    QuotaTracker policy :=
  tracker.store jobName (tracker.timestamps jobName ++ [now])

def remaining (jobName : String) (now : DateTime) (tracker : QuotaTracker policy) :
    Option Int × QuotaTracker policy :=
  let maxRuns := policy.maxRunsFor jobName
  if maxRuns = 0 then (none, tracker)
  else
    let tracker := tracker.evict now jobName
    (some (max 0 (maxRuns - (tracker.timestamps jobName).length)), tracker)

theorem timestamps_store (tracker : QuotaTracker policy) (jobName : String) (ts : List DateTime)
    (job : String) : (tracker.store jobName ts).timestamps job =
      if job = jobName then ts else tracker.timestamps job := by
  simp only [timestamps, store, Dict.get?_set]
  split <;> rfl

theorem timestamps_evict (tracker : QuotaTracker policy) (now : DateTime) (jobName : String) :
    (tracker.evict now jobName).timestamps jobName =
      (tracker.timestamps jobName).filter fun t => now - policy.window jobName ≤ t := by
  rw [evict, timestamps_store, if_pos rfl]

/-! ## The recorded times -/

/-- Every list holds what the job's history does, from the start of the window at `now` on. -/
def Tracks (now : DateTime) (history : String → List DateTime) (tracker : QuotaTracker policy) :
    Prop :=
  ∀ job, AgreeFrom (now - policy.window job) (history job) (tracker.timestamps job)

theorem tracks_new (now : DateTime) : Tracks now (fun _ => []) ({} : QuotaTracker policy) :=
  fun _ => AgreeFrom.refl _ _

section Tracks

variable {now later : DateTime} {history : String → List DateTime} {tracker : QuotaTracker policy}

theorem Tracks.mono (tracks : tracker.Tracks now history) (le : now ≤ later) :
    tracker.Tracks later history :=
  fun job => (tracks job).mono (sub_le_sub_right le _)

/-- A time is recorded, which need not be the latest one. -/
theorem Tracks.record (tracks : tracker.Tracks now history) (jobName : String) (ts : DateTime) :
    (tracker.record jobName ts).Tracks now
      fun job => history job ++ if job = jobName then [ts] else [] := by
  intro job
  dsimp only
  rw [QuotaTracker.record, timestamps_store]
  by_cases here : job = jobName
  · subst here
    rw [if_pos rfl, if_pos rfl]
    exact (tracks job).append [ts]
  · rw [if_neg here, if_neg here, List.append_nil]
    exact tracks job

theorem Tracks.evict (tracks : tracker.Tracks now history) (le : now ≤ later) (jobName : String) :
    (tracker.evict later jobName).Tracks later history := by
  intro job
  rw [QuotaTracker.evict, timestamps_store]
  by_cases here : job = jobName
  · subst here
    rw [if_pos rfl]
    exact (tracks job).prune (sub_le_sub_right le _)
  · rw [if_neg here]
    exact tracks.mono le job

theorem Tracks.check (tracks : tracker.Tracks now history) (le : now ≤ later) (jobName : String) :
    (tracker.check jobName later).2.Tracks later history := by
  rw [QuotaTracker.check]
  dsimp only
  split
  · exact tracks.mono le
  · split
    · exact tracks.evict le jobName
    · exact tracks.evict le jobName

theorem Tracks.remaining (tracks : tracker.Tracks now history) (le : now ≤ later)
    (jobName : String) : (tracker.remaining jobName later).2.Tracks later history := by
  rw [QuotaTracker.remaining]
  dsimp only
  split
  · exact tracks.mono le
  · exact tracks.evict le jobName

/-- The count after pruning at `later` is that of the window that ends there. -/
theorem Tracks.length_evict (tracks : tracker.Tracks now history) (le : now ≤ later)
    (jobName : String) (past : ∀ t ∈ history jobName, t ≤ later) :
    ((tracker.evict later jobName).timestamps jobName).length =
      countIn (later - policy.window jobName) later (history jobName) := by
  rw [timestamps_evict]
  exact (tracks jobName).length_prune (sub_le_sub_right le _) past

/-- **The check** of a limited job passes exactly when its window has room. -/
theorem Tracks.check_iff (tracks : tracker.Tracks now history) (le : now ≤ later)
    {jobName : String} (limited : policy.maxRunsFor jobName ≠ 0)
    (past : ∀ t ∈ history jobName, t ≤ later) :
    (tracker.check jobName later).1 = .ok () ↔
      (countIn (later - policy.window jobName) later (history jobName) : Int) <
        policy.maxRunsFor jobName := by
  rw [QuotaTracker.check]
  dsimp only
  rw [if_neg limited, tracks.length_evict le jobName past]
  split
  · rename_i full
    exact iff_of_false (fun passed => nomatch passed) (not_lt.mpr full)
  · rename_i room
    exact iff_of_true rfl (not_le.mp room)

theorem Tracks.remaining_eq (tracks : tracker.Tracks now history) (le : now ≤ later)
    {jobName : String} (limited : policy.maxRunsFor jobName ≠ 0)
    (past : ∀ t ∈ history jobName, t ≤ later) :
    (tracker.remaining jobName later).1 = some (max 0 (policy.maxRunsFor jobName -
      countIn (later - policy.window jobName) later (history jobName))) := by
  rw [QuotaTracker.remaining]
  dsimp only
  rw [if_neg limited, tracks.length_evict le jobName past]

end Tracks

end QuotaTracker

end Cronwatch.Jobs
