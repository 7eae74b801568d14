/-
# Alerts.SlidingWindows -- the rate limiter and the quota tracker count alike

One sequence of operations is carried out on a `RateLimiter` and on a `QuotaTracker`.  The
limiter reads the clock in seconds and prunes the head of a queue, also when it records; the
tracker reads it as a `datetime` and filters a list, only when it is asked.

Neither state determines the other one.  Both follow the same history of records
(`Follows`), and their answers are the same function of that (`windows_agree`).
-/
import Cronwatch.Alerts.RateLimit
import Cronwatch.Jobs.Quota
import Mathlib.Data.Int.ConditionallyCompleteOrder
import Mathlib.Data.Rat.Cast.Order
import Mathlib.Tactic.Ring

namespace Cronwatch.Alerts.SlidingWindows

set_option autoImplicit false

open Cronwatch.Theory Cronwatch.Runtime Cronwatch.Jobs

inductive Operation where
  | record
  /-- `is_allowed`, or `check`. -/
  | ask
  | remaining
deriving DecidableEq

structure Event where
  operation : Operation
  jobName : String
  now : DateTime

/-- A clock reading in seconds. -/
def reading (t : DateTime) : ℚ := t / 1000000

def limiterStep (limiter : RateLimiter) (e : Event) : RateLimiter :=
  match e.operation with
  | .record => limiter.record (reading e.now) e.jobName
  | .ask => (limiter.isAllowed (reading e.now) e.jobName).2
  | .remaining => (limiter.remaining (reading e.now) e.jobName).2

def trackerStep {policy : QuotaPolicy} (tracker : QuotaTracker policy) (e : Event) :
    QuotaTracker policy :=
  match e.operation with
  | .record => tracker.record e.jobName e.now
  | .ask => (tracker.check e.jobName e.now).2
  | .remaining => (tracker.remaining e.jobName e.now).2

/-- The times at which the job was recorded. -/
def recorded (jobName : String) (events : List Event) : List DateTime :=
  events.filterMap fun e => if e.operation = .record ∧ e.jobName = jobName then some e.now else none

theorem recorded_append (jobName : String) (before : List Event) (e : Event) :
    recorded jobName (before ++ [e]) = recorded jobName before ++
      if e.operation = .record ∧ e.jobName = jobName then [e.now] else [] := by
  rw [recorded, List.filterMap_append, recorded]
  congr 1
  rw [List.filterMap_cons]
  split
  · rename_i other
    rw [if_neg]
    · rfl
    · exact fun here => by simp [here] at other
  · rename_i t found
    rw [Option.ite_none_right_eq_some, Option.some.injEq] at found
    rw [if_pos found.1, found.2]
    rfl

theorem recorded_past {before : List Event} {now : DateTime} (past : ∀ e ∈ before, e.now ≤ now)
    (jobName : String) : ∀ t ∈ recorded jobName before, t ≤ now := by
  intro t member
  obtain ⟨e, among, found⟩ := List.mem_filterMap.mp member
  rw [Option.ite_none_right_eq_some, Option.some.injEq] at found
  rw [← found.2]
  exact past e among

theorem reading_strictMono : StrictMono reading := by
  intro a b less
  rw [reading, reading]
  exact div_lt_div_of_pos_right (Int.cast_lt.mpr less) (by decide +kernel)

theorem reading_sub_seconds (t : DateTime) (w : Int) :
    reading (t - seconds w) = reading t - w := by
  rw [reading, reading, seconds]
  push_cast
  ring

/-! ## One history -/

section History

variable {policy : QuotaPolicy} {w m : Int}

/-- Both states follow the records among the events, up to `now`. -/
structure Follows (w m : Int) (before : List Event) (now : DateTime) (limiter : RateLimiter)
    (tracker : QuotaTracker policy) : Prop where
  window : limiter.window = w
  max : limiter.max = m
  limiter : limiter.Tracks (reading now) fun job => (recorded job before).map reading
  tracker : tracker.Tracks now fun job => recorded job before

variable {before : List Event} {now : DateTime} {limiter : RateLimiter}
  {tracker : QuotaTracker policy}

theorem Follows.mono (follows : Follows w m before now limiter tracker) {later : DateTime}
    (le : now ≤ later) : Follows w m before later limiter tracker where
  window := follows.window
  max := follows.max
  limiter := follows.limiter.mono (reading_strictMono.monotone le)
  tracker := follows.tracker.mono le

/-- An event that is no record is not in the history. -/
theorem recorded_of_ne {e : Event} (other : e.operation ≠ .record) (before : List Event) :
    (fun job => recorded job (before ++ [e])) = fun job => recorded job before := by
  funext job
  rw [recorded_append, if_neg fun here => other here.1, List.append_nil]

/-- ... so it changes nothing that the two follow. -/
theorem Follows.unrecorded {e : Event} (follows : Follows w m before e.now limiter tracker)
    (other : e.operation ≠ .record) : Follows w m (before ++ [e]) e.now limiter tracker := by
  have history := recorded_of_ne other before
  refine ⟨follows.window, follows.max, ?_, ?_⟩
  · simp only [congrFun history]
    exact follows.limiter
  · rw [history]
    exact follows.tracker

/-- **One operation** on both. -/
theorem Follows.step {e : Event} (follows : Follows w m before e.now limiter tracker) :
    Follows w m (before ++ [e]) e.now (limiterStep limiter e) (trackerStep tracker e) := by
  obtain ⟨operation, jobName, now⟩ := e
  cases operation with
  | record =>
      have history : (fun job => recorded job (before ++ [⟨.record, jobName, now⟩])) =
          fun job => recorded job before ++ if job = jobName then [now] else [] := by
        funext job
        rw [recorded_append]
        simp only [true_and, eq_comm]
      refine ⟨follows.window, follows.max, ?_, ?_⟩
      · have mapped : (fun job => (recorded job (before ++ [⟨.record, jobName, now⟩])).map reading) =
            fun job => (recorded job before).map reading ++
              if job = jobName then [reading now] else [] := by
          funext job
          rw [congrFun history job, List.map_append]
          split
          · rfl
          · rfl
        rw [mapped]
        exact follows.limiter.record le_rfl jobName
      · rw [history]
        exact follows.tracker.record jobName now
  | ask =>
      have asked : Follows w m before now (limiter.isAllowed (reading now) jobName).2
          (tracker.check jobName now).2 :=
        ⟨follows.window, follows.max, follows.limiter.evict le_rfl jobName,
          follows.tracker.check le_rfl jobName⟩
      exact Follows.unrecorded (e := ⟨.ask, jobName, now⟩) asked nofun
  | remaining =>
      have asked : Follows w m before now (limiter.remaining (reading now) jobName).2
          (tracker.remaining jobName now).2 :=
        ⟨follows.window, follows.max, follows.limiter.evict le_rfl jobName,
          follows.tracker.remaining le_rfl jobName⟩
      exact Follows.unrecorded (e := ⟨.remaining, jobName, now⟩) asked nofun

/-- ... and any number of them, in order of time. -/
theorem follows_events (policy : QuotaPolicy) (created : RateLimiter.new w m = .ok limiter)
    (sorted : before.Pairwise fun a b => a.now ≤ b.now) {now : DateTime}
    (past : ∀ e ∈ before, e.now ≤ now) :
    Follows w m before now (before.foldl limiterStep limiter)
      (before.foldl trackerStep ({} : QuotaTracker policy)) := by
  induction before using List.reverseRecOn generalizing now with
  | nil =>
      obtain ⟨window, max, fresh⟩ := RateLimitedAlerter.good_new (fun _ => reading now) created
      exact ⟨window, max, fresh.tracks, QuotaTracker.tracks_new now⟩
  | append_singleton before e ih =>
      obtain ⟨front, -, last⟩ := List.pairwise_append.mp sorted
      have earlier := ih front fun e' member => last e' member e List.mem_cons_self
      rw [List.foldl_append, List.foldl_append]
      exact earlier.step.mono (past e (List.mem_append_right _ List.mem_cons_self))

end History

/-- **The two windows agree.**  After any operations in order of time, on any jobs, the
limiter allows an alert exactly when the check of the tracker passes, both have as many
left, and that is the limit less the records in the window that ends now. -/
theorem windows_agree {w m : Int} (positive : 0 < w) (atLeastOne : 1 ≤ m) {policy : QuotaPolicy}
    (maxRuns : ∀ job, policy.maxRunsFor job = m)
    (windowSeconds : ∀ job, policy.windowSecondsFor job = w)
    (before : List Event) (sorted : before.Pairwise fun a b => a.now ≤ b.now) (jobName : String)
    (now : DateTime) (past : ∀ e ∈ before, e.now ≤ now) :
    ∃ limiter, RateLimiter.new w m = .ok limiter ∧
      let limiter := before.foldl limiterStep limiter
      let tracker := before.foldl trackerStep ({} : QuotaTracker policy)
      ((limiter.isAllowed (reading now) jobName).1 = true ↔
          (tracker.check jobName now).1 = .ok ()) ∧
        (tracker.remaining jobName now).1 =
          some (limiter.remaining (reading now) jobName).1 ∧
        (limiter.remaining (reading now) jobName).1 =
          max 0 (m - countIn (now - seconds w) now (recorded jobName before)) := by
  have created : ∃ limiter, RateLimiter.new w m = .ok limiter := by
    rw [RateLimiter.new, dif_pos (Int.cast_pos.mpr positive), dif_pos atLeastOne]
    exact ⟨_, rfl⟩
  obtain ⟨limiter, created⟩ := created
  refine ⟨limiter, created, ?_⟩
  have follows := follows_events policy created sorted past
  generalize before.foldl limiterStep limiter = limiter at follows
  generalize before.foldl trackerStep ({} : QuotaTracker policy) = tracker at follows
  -- the window of the limiter is that of the tracker, in other units
  have count : countIn (reading now - limiter.window) (reading now)
      ((recorded jobName before).map reading) =
        countIn (now - seconds w) now (recorded jobName before) := by
    rw [follows.window, ← reading_sub_seconds]
    exact countIn_map reading_strictMono ..
  have limited : policy.maxRunsFor jobName ≠ 0 := by
    rw [maxRuns]
    omega
  have window : policy.window jobName = seconds w := by
    rw [QuotaPolicy.window, windowSeconds]
  have recent := recorded_past past jobName
  have allowed := follows.limiter.isAllowed_iff le_rfl jobName
  have left := follows.limiter.remaining_eq le_rfl jobName
  have passes := follows.tracker.check_iff le_rfl limited recent
  have leftRuns := follows.tracker.remaining_eq le_rfl limited recent
  rw [count, follows.max] at allowed left
  rw [window, maxRuns] at passes leftRuns
  refine ⟨allowed.trans passes.symm, ?_, left⟩
  rw [leftRuns, left]

/-- Two runs an hour; a record and a query before the question. -/
theorem windows_agree_hourly :
    let policy : QuotaPolicy := { defaultMaxRuns := 2, defaultWindowSeconds := 3600 }
    let before : List Event := [⟨.record, "backup", 0⟩, ⟨.ask, "backup", seconds 60⟩]
    ∃ limiter, RateLimiter.new 3600 2 = .ok limiter ∧
      (((before.foldl limiterStep limiter).isAllowed (reading (seconds 120)) "backup").1 = true ↔
        ((before.foldl trackerStep ({} : QuotaTracker policy)).check "backup" (seconds 120)).1 =
          .ok ()) := by
  intro policy before
  have maxRuns : ∀ job, policy.maxRunsFor job = 2 := fun _ => rfl
  have windowSeconds : ∀ job, policy.windowSecondsFor job = 3600 := fun _ => rfl
  obtain ⟨limiter, created, agree, -⟩ := windows_agree (by decide) (by decide) maxRuns windowSeconds
    before (by decide) "backup" (seconds 120) (by decide)
  exact ⟨limiter, created, agree⟩

end Cronwatch.Alerts.SlidingWindows
