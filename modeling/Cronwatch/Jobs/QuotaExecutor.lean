/-
# Jobs.QuotaExecutor -- a quota that is checked before a run and charged after it

`QuotaExecutor.run` reads the clock, checks the quota, calls the inner executor and, when
that has succeeded, records the time it read.  `system` interleaves any number of such runs:
the check is one step and the rest another one, and `exec_run` says that the two of one run
without a pause are `run`.

A run that still executes is on no list, so runs that overlap are all let in while the list
has room for one (`overlap_exceeds`).  `starts_bounded` is about the runs of the system in
which whoever is let in finds room for those that still execute as well.
-/
import Cronwatch.Jobs.Config
import Cronwatch.Jobs.Execution
import Cronwatch.Jobs.Quota
import Cronwatch.Theory.Transition

namespace Cronwatch.Jobs

set_option autoImplicit false

open Cronwatch.Theory Cronwatch.Runtime

/-- What `QuotaExecutor.run` returns. -/
structure QuotaResult where
  result : Option ExecutionResult
  quotaExceeded : Bool := false
  jobName : String := ""

def QuotaResult.succeeded (r : QuotaResult) : Bool :=
  if r.quotaExceeded then false
  else
    match r.result with
    | some result => result.success
    | none => false

namespace QuotaExecutor

variable {policy : QuotaPolicy}

/-- The part of `run` after the inner executor, which has returned or raised. -/
def finish (jobName : String) (now : DateTime) (outcome : Except PyException ExecutionResult)
    (tracker : QuotaTracker policy) : Except PyException QuotaResult × QuotaTracker policy :=
  match outcome with
  | .error e => (.error e, tracker)
  | .ok result =>
      (.ok { result := some result, jobName },
        if result.success then tracker.record jobName now else tracker)

def run (inner : JobConfig → Except PyException ExecutionResult) (now : DateTime) (job : JobConfig)
    (tracker : QuotaTracker policy) : Except PyException QuotaResult × QuotaTracker policy :=
  match tracker.check job.name now with
  | (.error _, tracker) =>
      (.ok { result := none, quotaExceeded := true, jobName := job.name }, tracker)
  | (.ok (), tracker) => finish job.name now (inner job) tracker

/-! ## Overlapping runs -/

/-- A run that was let in, with the time it read. -/
structure Run where
  jobName : String
  startedAt : DateTime
deriving DecidableEq

/-- The tracker, the latest clock reading, the runs whose inner executor has not returned,
and all runs that have succeeded. -/
structure State (policy : QuotaPolicy) where
  tracker : QuotaTracker policy
  clock : DateTime
  executing : List Run
  succeeded : List Run

inductive Action where
  | start (jobName : String) (now : DateTime)
  /-- The inner executor of the run returns or raises. -/
  | finish (run : Run) (outcome : Except PyException ExecutionResult)

def hasSucceeded : Except PyException ExecutionResult → Bool
  | .ok result => result.success
  | .error _ => false

/-- One step; `none` where the clock would go back, or no such run executes. -/
def step (s : State policy) : Action → Option (State policy)
  | .start jobName now =>
      if now < s.clock then none
      else
        match s.tracker.check jobName now with
        | (.error _, tracker) => some { s with tracker, clock := now }
        | (.ok (), tracker) =>
            some { s with tracker, clock := now, executing := s.executing ++ [⟨jobName, now⟩] }
  | .finish run outcome =>
      if run ∈ s.executing then
        some { s with
          tracker := (finish run.jobName run.startedAt outcome s.tracker).2
          executing := s.executing.erase run
          succeeded := if hasSucceeded outcome then s.succeeded ++ [run] else s.succeeded }
      else none

/-- A new tracker, and any clock reading. -/
def system (policy : QuotaPolicy) : TransitionSystem (State policy) Action where
  init := fun s => s.tracker = {} ∧ s.executing = [] ∧ s.succeeded = []
  step := step

/-- When the runs of a job have started. -/
def startsOf (jobName : String) (runs : List Run) : List DateTime :=
  (runs.filter fun run => run.jobName = jobName).map Run.startedAt

/-- What a step can do. -/
inductive Takes (s : State policy) : Action → State policy → Prop where
  | refused {jobName : String} {now : DateTime} {e : QuotaExceededError}
      {tracker : QuotaTracker policy} (le : s.clock ≤ now)
      (checked : s.tracker.check jobName now = (.error e, tracker)) :
      Takes s (.start jobName now) { s with tracker, clock := now }
  | admitted {jobName : String} {now : DateTime} {tracker : QuotaTracker policy}
      (le : s.clock ≤ now) (checked : s.tracker.check jobName now = (.ok (), tracker)) :
      Takes s (.start jobName now)
        { s with tracker, clock := now, executing := s.executing ++ [⟨jobName, now⟩] }
  | failed {run : Run} {outcome : Except PyException ExecutionResult}
      (executes : run ∈ s.executing) (failed : hasSucceeded outcome = false) :
      Takes s (.finish run outcome) { s with executing := s.executing.erase run }
  | succeeded {run : Run} {outcome : Except PyException ExecutionResult}
      (executes : run ∈ s.executing) (succeeded : hasSucceeded outcome = true) :
      Takes s (.finish run outcome)
        { s with
          tracker := s.tracker.record run.jobName run.startedAt
          executing := s.executing.erase run
          succeeded := s.succeeded ++ [run] }

/-- The tracker is charged for a success, and for nothing else. -/
theorem tracker_finish (jobName : String) (now : DateTime)
    (outcome : Except PyException ExecutionResult) (tracker : QuotaTracker policy) :
    (finish jobName now outcome tracker).2 =
      if hasSucceeded outcome then tracker.record jobName now else tracker := by
  cases outcome with
  | error e => rfl
  | ok result => rfl

theorem step_iff {s s' : State policy} {a : Action} : step s a = some s' ↔ Takes s a s' := by
  constructor
  · intro taken
    cases a with
    | start jobName now =>
        rw [step] at taken
        split at taken
        · cases taken
        · rename_i forward
          split at taken
          · rename_i checked
            cases taken
            exact .refused (not_lt.mp forward) checked
          · rename_i checked
            cases taken
            exact .admitted (not_lt.mp forward) checked
    | finish run outcome =>
        rw [step, tracker_finish] at taken
        split at taken
        · rename_i executes
          cases taken
          by_cases success : hasSucceeded outcome = true
          · rw [if_pos success, if_pos success]
            exact .succeeded executes success
          · rw [if_neg success, if_neg success]
            exact .failed executes (Bool.eq_false_iff.mpr success)
        · cases taken
  · intro takes
    cases takes with
    | refused le checked => simp only [step, if_neg (not_lt.mpr le), checked]
    | admitted le checked => simp only [step, if_neg (not_lt.mpr le), checked]
    | failed executes failed => simp [step, tracker_finish, executes, failed]
    | succeeded executes success => simp [step, tracker_finish, executes, success]

theorem step_finish {s : State policy} {run : Run} (executes : run ∈ s.executing)
    (outcome : Except PyException ExecutionResult) :
    step s (.finish run outcome) = some { s with
      tracker := (finish run.jobName run.startedAt outcome s.tracker).2
      executing := s.executing.erase run
      succeeded := if hasSucceeded outcome then s.succeeded ++ [run] else s.succeeded } :=
  if_pos executes

/-- **Steps without a pause are `run`**: they leave the tracker as the call does. -/
theorem exec_run (inner : JobConfig → Except PyException ExecutionResult) (job : JobConfig)
    {s : State policy} {now : DateTime} (le : s.clock ≤ now) :
    ∃ actions ∈ [[.start job.name now],
        [.start job.name now, .finish ⟨job.name, now⟩ (inner job)]],
      ∃ s', (system policy).exec actions s = some s' ∧
        s'.tracker = (run inner now job s.tracker).2 := by
  rw [run]
  rcases checked : s.tracker.check job.name now with ⟨e | ⟨⟩, tracker⟩
  · have taken := step_iff.mpr (Takes.refused le checked)
    exact ⟨_, List.mem_cons_self, _, TransitionSystem.exec_cons taken [], rfl⟩
  · have started := step_iff.mpr (Takes.admitted le checked)
    have executes : (⟨job.name, now⟩ : Run) ∈ s.executing ++ [⟨job.name, now⟩] :=
      List.mem_append_right _ List.mem_cons_self
    let admitted : State policy :=
      { s with tracker, clock := now, executing := s.executing ++ [⟨job.name, now⟩] }
    have finished : step admitted (.finish ⟨job.name, now⟩ (inner job)) = some _ :=
      step_finish executes (inner job)
    have executed :=
      calc (system policy).exec [.start job.name now, .finish ⟨job.name, now⟩ (inner job)] s
          = (system policy).exec [.finish ⟨job.name, now⟩ (inner job)] admitted :=
            TransitionSystem.exec_cons started _
        _ = some _ := TransitionSystem.exec_cons finished []
    exact ⟨_, List.mem_cons_of_mem _ List.mem_cons_self, _, executed, rfl⟩

/-! ## The bound -/

/-- Whoever is let in finds more runs left than there are of the job that still execute and
have started in the window. -/
def RoomForAll (s : State policy) : Action → Prop
  | .start jobName now => (s.tracker.check jobName now).1 = .ok () →
      ∀ left, (s.tracker.remaining jobName now).1 = some left →
        (countIn (now - policy.window jobName) now (startsOf jobName s.executing) : Int) < left
  | .finish _ _ => True

instance : ∀ (s : State policy) (a : Action), Decidable (RoomForAll s a)
  | s, .start jobName now => inferInstanceAs (Decidable ((s.tracker.check jobName now).1 = .ok () →
      ∀ left ∈ (s.tracker.remaining jobName now).1,
        (countIn (now - policy.window jobName) now (startsOf jobName s.executing) : Int) < left))
  | _, .finish _ _ => .isTrue trivial

/-- The lists follow the successes, and the runs of a limited job, with those that still
execute, are no more than its limit in any interval. -/
structure Bounded (s : State policy) : Prop where
  tracks : s.tracker.Tracks s.clock fun job => startsOf job s.succeeded
  past : ∀ run ∈ s.succeeded ++ s.executing, run.startedAt ≤ s.clock
  atMost : ∀ job, 0 < policy.maxRunsFor job → 0 < policy.windowSecondsFor job →
    AtMost (policy.window job) (policy.maxRunsFor job) (startsOf job (s.succeeded ++ s.executing))

theorem startsOf_append (jobName : String) (first second : List Run) :
    startsOf jobName (first ++ second) = startsOf jobName first ++ startsOf jobName second := by
  rw [startsOf, List.filter_append, List.map_append]
  rfl

theorem startsOf_singleton (jobName : String) (run : Run) :
    startsOf jobName [run] = if jobName = run.jobName then [run.startedAt] else [] := by
  rw [startsOf, List.filter_cons]
  by_cases here : run.jobName = jobName
  · simp [here]
  · simp [here, Ne.symm here]

theorem startsOf_past {runs : List Run} {now : DateTime}
    (past : ∀ run ∈ runs, run.startedAt ≤ now) (jobName : String) :
    ∀ t ∈ startsOf jobName runs, t ≤ now := by
  intro t member
  obtain ⟨run, among, rfl⟩ := List.mem_map.mp member
  exact past run (List.mem_of_mem_filter among)

theorem startsOf_subperm {fewer runs : List Run} (sub : fewer.Subperm runs) (jobName : String) :
    (startsOf jobName fewer).Subperm (startsOf jobName runs) := by
  obtain ⟨some_, same, sublist⟩ := sub.filter fun run => run.jobName = jobName
  exact ⟨some_.map Run.startedAt, same.map _, sublist.map _⟩

theorem bounded_init {s : State policy} (initial : (system policy).init s) : Bounded s := by
  obtain ⟨new, idle, none_⟩ := initial
  refine ⟨?_, ?_, fun job limited _ => ?_⟩
  · rw [new, none_]
    exact QuotaTracker.tracks_new _
  · rw [idle, none_]
    exact fun run impossible => absurd impossible List.not_mem_nil
  · rw [idle, none_]
    exact atMost_nil limited.le

/-- **A run that is let in** with room for those that execute fits in all intervals. -/
theorem Bounded.admit {s : State policy} (bounded : Bounded s) {jobName : String} {now : DateTime}
    {tracker : QuotaTracker policy} (le : s.clock ≤ now)
    (checked : s.tracker.check jobName now = (.ok (), tracker))
    (room : RoomForAll s (.start jobName now)) :
    Bounded { s with tracker, clock := now, executing := s.executing ++ [⟨jobName, now⟩] } := by
  have recent : ∀ run ∈ s.succeeded ++ s.executing, run.startedAt ≤ now :=
    fun run member => (bounded.past run member).trans le
  refine ⟨?_, ?_, fun job limited window => ?_⟩
  · have kept := bounded.tracks.check le jobName
    rw [checked] at kept
    exact kept
  · intro run member
    rw [← List.append_assoc] at member
    rcases List.mem_append.mp member with before | here
    · exact recent run before
    · rw [List.mem_singleton.mp here]
  · dsimp only
    rw [← List.append_assoc, startsOf_append, startsOf_singleton]
    by_cases here : job = jobName
    · subst here
      rw [if_pos rfl]
      have left := bounded.tracks.remaining_eq le limited.ne'
        (startsOf_past (fun run member => recent run (List.mem_append_left _ member)) job)
      have more := room (by rw [checked]) _ left
      refine (bounded.atMost job limited window).append le_rfl (startsOf_past recent job) ?_
      have total : countIn (now - policy.window job) now (startsOf job (s.succeeded ++ s.executing)) =
          countIn (now - policy.window job) now (startsOf job s.succeeded) +
            countIn (now - policy.window job) now (startsOf job s.executing) := by
        rw [startsOf_append, countIn, List.countP_append]
        rfl
      dsimp only
      rw [total]
      omega
    · rw [if_neg here, List.append_nil]
      exact bounded.atMost job limited window

theorem bounded_step (s : State policy) (a : Action) (s' : State policy) (bounded : Bounded s)
    (room : RoomForAll s a) (taken : step s a = some s') : Bounded s' := by
  cases step_iff.mp taken with
  | @refused jobName _ _ _ le checked =>
      refine ⟨?_, fun run member => (bounded.past run member).trans le, bounded.atMost⟩
      have kept := bounded.tracks.check le jobName
      rw [checked] at kept
      exact kept
  | admitted le checked => exact bounded.admit le checked room
  | @failed run outcome executes failed =>
      have sub : (s.succeeded ++ s.executing.erase run).Sublist (s.succeeded ++ s.executing) :=
        List.Sublist.append_left List.erase_sublist _
      refine ⟨bounded.tracks, fun r member => bounded.past r (sub.subset member), ?_⟩
      intro job limited window
      exact (bounded.atMost job limited window).subperm (startsOf_subperm sub.subperm job)
  | @succeeded run outcome executes success =>
      -- the run moves from one list to the other
      have same : (s.succeeded ++ [run] ++ s.executing.erase run).Perm
          (s.succeeded ++ s.executing) := by
        rw [List.append_assoc, List.singleton_append]
        exact (List.perm_cons_erase executes).symm.append_left _
      refine ⟨?_, fun r member => bounded.past r (same.subset member), ?_⟩
      · simp only [startsOf_append, startsOf_singleton]
        exact bounded.tracks.record run.jobName run.startedAt
      · intro job limited window
        exact (bounded.atMost job limited window).subperm (startsOf_subperm same.subperm job)

/-- **The quota with overlapping runs.**  As long as whoever is let in finds room for the
runs that still execute, no closed interval of the window's length holds more successful
starts than the limit. -/
theorem starts_bounded {jobName : String} (limited : 0 < policy.maxRunsFor jobName)
    (window : 0 < policy.windowSecondsFor jobName) {s : State policy}
    (run : (system policy).RunsTo RoomForAll s) (start : DateTime) :
    (countIn start (start + policy.window jobName) (startsOf jobName s.succeeded) : Int) ≤
      policy.maxRunsFor jobName := by
  have bounded : Bounded s :=
    run.invariant (fun _ initial => bounded_init initial) bounded_step
  have sub : (startsOf jobName s.succeeded).Subperm (startsOf jobName (s.succeeded ++ s.executing)) :=
    startsOf_subperm (List.sublist_append_left _ _).subperm jobName
  exact (bounded.atMost jobName limited window).subperm sub start

/-- `maxRuns` runs an hour. -/
def hourly (maxRuns : Int) : QuotaPolicy where
  defaultMaxRuns := maxRuns

def idle (maxRuns : Int) : State (hourly maxRuns) where
  tracker := {}
  clock := 0
  executing := []
  succeeded := []

/-- A report that was made. -/
def made : ExecutionResult where
  jobName := "report"
  exitCode := 0
  stdout := ""
  stderr := ""
  durationSeconds := 60
  startedAt := 0
  finishedAt := 60

def start (time : Int) : Action := .start "report" (seconds time)

def success (time : Int) : Action := .finish ⟨"report", seconds time⟩ (.ok made)

/-- Runs that overlap, each with room for both.  The start at 600 is refused, and by 3700 the
first two starts are out of the window. -/
def relay : List Action :=
  [start 0, start 60, success 0, start 120, success 60, success 120, start 600, start 3700,
    start 3701, success 3701, success 3700]

theorem starts_bounded_relay :
    ∃ s, (system (hourly 3)).exec relay (idle 3) = some s ∧
      startsOf "report" s.succeeded = [0, 60, 120, 3701, 3700].map seconds ∧
      (countIn 0 (0 + (hourly 3).window "report") (startsOf "report" s.succeeded) : Int) ≤ 3 := by
  have executed : (system (hourly 3)).exec relay (idle 3) = some _ := rfl
  have roomForAll : (system (hourly 3)).Meets RoomForAll relay (idle 3) := by decide +kernel
  have limited : 0 < (hourly 3).maxRunsFor "report" := by decide
  exact ⟨_, executed, rfl, starts_bounded limited (by decide)
    (.exec (.init ⟨rfl, rfl, rfl⟩) roomForAll executed) 0⟩

/-- Two runs that start at the same time, before either of them has finished. -/
def overlapping : List Action :=
  [start 0, start 0, success 0, success 0]

/-- **Both are let in**, and there are two successful starts within the hour that may hold
one. -/
theorem overlap_exceeds :
    ∃ s, (system (hourly 1)).Reachable s ∧ (hourly 1).maxRunsFor "report" = 1 ∧
      ¬ (countIn 0 (0 + (hourly 1).window "report") (startsOf "report" s.succeeded) : Int) ≤ 1 := by
  have executed : (system (hourly 1)).exec overlapping (idle 1) = some _ := rfl
  refine ⟨_, TransitionSystem.reachable_of_exec ⟨rfl, rfl, rfl⟩ executed, rfl, ?_⟩
  decide

end QuotaExecutor

end Cronwatch.Jobs
