/-
# Jobs.Scheduler -- polling the schedules and running what is due

`tick` goes through the jobs of the configuration in order and runs those that are
due, which are not within a minute of their last recorded run, and alerts for a
failure.  The cron expressions (`getPrev`), the execution of a job and the alerter are
code handed in; the first and the last may raise, and an exception leaves `tick` at
once with the records made so far.  `calls` is the history of executions and alerts.

`mem_ticks_calls` says at which ticks of a run a job was executed.  From it,
`runs_every_occurrence_iff`: an occurrence of a schedule is followed by an execution
within the tolerance exactly when some tick in that time is not blocked for the job,
by a run less than a minute ago or by an exception in front of it.
-/
import Cronwatch.Jobs.Config
import Cronwatch.Jobs.Execution
import Cronwatch.Runtime.Python
import Cronwatch.Theory.Loop
import Mathlib.Algebra.Order.Group.Abs
import Mathlib.Algebra.Order.Group.Int
import Mathlib.Order.Bounds.Defs
import Mathlib.Tactic.Linarith

namespace Cronwatch.Jobs

set_option autoImplicit false

open Cronwatch.Theory Cronwatch.Theory.Loop Cronwatch.Runtime

namespace Scheduler

/-- An execution or an alert made by `tick`. -/
inductive Call where
  | runJob (job : JobConfig) (now : DateTime)
  | send (result : ExecutionResult)
deriving DecidableEq

/-- The code handed in; what it does may depend on the calls made before. -/
structure Env where
  /-- `croniter(schedule, now).get_prev(datetime)`. -/
  getPrev : String → DateTime → Except PyException DateTime
  runJob : List Call → JobConfig → ExecutionResult
  send : List Call → ExecutionResult → Except PyException Unit

end Scheduler

structure Scheduler where
  jobs : List JobConfig
  lastRun : Dict String DateTime := .empty
  calls : List Scheduler.Call := []

namespace Scheduler

def new (jobs : List JobConfig) : Scheduler := { jobs }

def isDue (env : Env) (schedule : String) (now : DateTime) (toleranceSeconds : Int := 30) :
    Except PyException Bool :=
  match env.getPrev schedule now with
  | .error e => .error e
  | .ok prev => .ok (decide (|now - prev| ≤ seconds toleranceSeconds))

/-- The last recorded run of the job is less than a minute ago. -/
def ranRecently (now : DateTime) (job : JobConfig) (s : Scheduler) : Bool :=
  match s.lastRun.get? job.name with
  | none => false
  | some last => now - last < seconds 60

def shouldRun (env : Env) (now : DateTime) (job : JobConfig) (s : Scheduler) :
    Except PyException Bool :=
  if s.ranRecently now job then .ok false else isDue env job.schedule now

/-- The body of the loop for one job; `none` when the job is not run. -/
def process (env : Env) (now : DateTime) (job : JobConfig) (s : Scheduler) :
    Except PyException (Option ExecutionResult) × Scheduler :=
  match s.shouldRun env now job with
  | .error e => (.error e, s)
  | .ok false => (.ok none, s)
  | .ok true =>
      let result := env.runJob s.calls job
      let s := { s with
        lastRun := s.lastRun.set job.name now, calls := s.calls ++ [.runJob job now] }
      if result.success then (.ok (some result), s)
      else
        match env.send s.calls result with
        | .error e => (.error e, { s with calls := s.calls ++ [.send result] })
        | .ok () => (.ok (some result), { s with calls := s.calls ++ [.send result] })

def tickLoop (env : Env) (now : DateTime) :
    List JobConfig → Scheduler → Except PyException (List ExecutionResult) × Scheduler
  | [], s => (.ok [], s)
  | job :: rest, s =>
      match s.process env now job with
      | (.error e, s) => (.error e, s)
      | (.ok result, s) =>
          match tickLoop env now rest s with
          | (.error e, s) => (.error e, s)
          | (.ok results, s) => (.ok (result.toList ++ results), s)

def tick (env : Env) (now : DateTime) (s : Scheduler) :
    Except PyException (List ExecutionResult) × Scheduler :=
  tickLoop env now s.jobs s

def resetJob (jobName : String) (s : Scheduler) : Bool × Scheduler :=
  ((s.lastRun.get? jobName).isSome, { s with lastRun := s.lastRun.erase jobName })

/-- Calls of `tick` at the given times; what one of them raises does not stop the next. -/
def ticks (env : Env) (nows : List DateTime) (s : Scheduler) : Scheduler :=
  nows.foldl (fun s now => (s.tick env now).2) s

/-! ## Which jobs a tick executes -/

section Process

variable {env : Env} {now : DateTime} {job : JobConfig} {s : Scheduler}

theorem process_of_declined (declined : s.shouldRun env now job ≠ .ok true) :
    (s.process env now job).2 = s := by
  unfold process
  split
  · rfl
  · rfl
  · rename_i accepted
    exact absurd accepted declined

/-- The turn of a due job records it and executes it; an alert may follow, and the turn
raises exactly when the alert does. -/
theorem process_of_accepted (accepted : s.shouldRun env now job = .ok true) :
    ∃ alerts, (s.process env now job).2 = { s with
        lastRun := s.lastRun.set job.name now
        calls := s.calls ++ .runJob job now :: alerts } ∧
      (∀ call ∈ alerts, ∃ result, call = .send result) ∧
      ((∃ e, (s.process env now job).1 = .error e) ↔ (env.runJob s.calls job).success = false ∧
        ∃ e, env.send (s.calls ++ [.runJob job now]) (env.runJob s.calls job) = .error e) := by
  unfold process
  rw [accepted]
  dsimp only
  cases success : (env.runJob s.calls job).success with
  | true => exact ⟨[], rfl, by simp, by simp⟩
  | false =>
      rw [if_neg Bool.false_ne_true]
      refine ⟨[.send (env.runJob s.calls job)], ?_⟩
      cases env.send (s.calls ++ [.runJob job now]) (env.runJob s.calls job) <;> simp

end Process

section Process

variable (env : Env) (now : DateTime)

@[simp] theorem process_jobs (job : JobConfig) (s : Scheduler) :
    (s.process env now job).2.jobs = s.jobs := by
  by_cases accepted : s.shouldRun env now job = .ok true
  · obtain ⟨alerts, after, -, -⟩ := process_of_accepted accepted
    rw [after]
  · rw [process_of_declined accepted]

/-- The records of other names are left alone. -/
theorem process_lastRun (job : JobConfig) (s : Scheduler) {name : String} (other : name ≠ job.name) :
    (s.process env now job).2.lastRun.get? name = s.lastRun.get? name := by
  by_cases accepted : s.shouldRun env now job = .ok true
  · obtain ⟨alerts, after, -, -⟩ := process_of_accepted accepted
    rw [after]
    exact Dict.get?_set_of_ne _ _ other
  · rw [process_of_declined accepted]

/-- The calls of a turn, behind those made before it. -/
theorem added_process (job : JobConfig) (s : Scheduler) (j : JobConfig) (t : DateTime) :
    ∃ new, (s.process env now job).2.calls = s.calls ++ new ∧
      (Call.runJob j t ∈ new ↔ j = job ∧ t = now ∧ s.shouldRun env now job = .ok true) := by
  by_cases accepted : s.shouldRun env now job = .ok true
  · obtain ⟨alerts, after, reports, -⟩ := process_of_accepted accepted
    have noRun : Call.runJob j t ∉ alerts := by
      intro member
      obtain ⟨_, impossible⟩ := reports _ member
      cases impossible
    rw [after]
    exact ⟨_, rfl, by simp [accepted, noRun]⟩
  · rw [process_of_declined accepted]
    exact ⟨[], (List.append_nil _).symm, by simp [accepted]⟩

/-- The loop over the jobs, as a loop that an exception leaves. -/
theorem tickLoop_eq_loop (js : List JobConfig) (s : Scheduler) :
    tickLoop env now js s = loop (process env now) Option.toList js s := by
  induction js generalizing s with
  | nil => rfl
  | cons job rest ih =>
      rw [tickLoop, loop]
      rcases s.process env now job with ⟨e | result, s'⟩
      · rfl
      · dsimp only
        rw [ih]
        rcases loop (process env now) Option.toList rest s' with ⟨e | results, s''⟩ <;> rfl

theorem tickLoop_cons_of_error {job : JobConfig} {rest : List JobConfig} {s s' : Scheduler}
    {e : PyException} (failed : s.process env now job = (.error e, s')) :
    tickLoop env now (job :: rest) s = (.error e, s') := by
  rw [tickLoop_eq_loop, loop_cons_of_error failed]

theorem tickLoop_cons_of_ok {job : JobConfig} {rest : List JobConfig} {s s' : Scheduler}
    {result : Option ExecutionResult} (processed : s.process env now job = (.ok result, s')) :
    tickLoop env now (job :: rest) s =
      ((tickLoop env now rest s').1.map (result.toList ++ ·), (tickLoop env now rest s').2) := by
  rw [tickLoop_eq_loop, loop_cons_of_ok processed, ← tickLoop_eq_loop]

@[simp] theorem tickLoop_jobs (js : List JobConfig) (s : Scheduler) :
    (tickLoop env now js s).2.jobs = s.jobs := by
  rw [tickLoop_eq_loop]
  exact loop_invariant (fun job _ s' same => (process_jobs env now job s').trans same) rfl

theorem tickLoop_lastRun (js : List JobConfig) (s : Scheduler) {name : String}
    (other : ∀ job ∈ js, name ≠ job.name) :
    (tickLoop env now js s).2.lastRun.get? name = s.lastRun.get? name := by
  rw [tickLoop_eq_loop]
  refine loop_invariant (I := fun s' : Scheduler => s'.lastRun.get? name = s.lastRun.get? name)
    (fun job member s' same => ?_) rfl
  exact (process_lastRun env now job s' (other job member)).trans same

/-- The loop over `js` comes to `j`, nothing in front of it having raised, and finds it
due. -/
def Fires (j : JobConfig) (js : List JobConfig) (s : Scheduler) : Prop :=
  ∃ before after, js = before ++ j :: after ∧
    (∃ results, (tickLoop env now before s).1 = .ok results) ∧
    (tickLoop env now before s).2.shouldRun env now j = .ok true

theorem fires_iff_reaches (j : JobConfig) (js : List JobConfig) (s : Scheduler) :
    Fires env now j js s ↔ Reaches (process env now) Option.toList j js s
      fun s' => s'.shouldRun env now j = .ok true := by
  simp only [Fires, Reaches, tickLoop_eq_loop]

/-- **Which executions a loop makes.** -/
theorem added_tickLoop (js : List JobConfig) (s : Scheduler) (j : JobConfig) (t : DateTime) :
    ∃ new, (tickLoop env now js s).2.calls = s.calls ++ new ∧
      (Call.runJob j t ∈ new ↔ t = now ∧ Fires env now j js s) := by
  obtain ⟨new, calls, added⟩ := added_loop_iff
    (fun job s' => added_process env now job s' j t) js s
  rw [tickLoop_eq_loop, fires_iff_reaches]
  refine ⟨new, calls, added.trans ⟨?_, fun ⟨sameTime, before, after, split, returned, due⟩ => ?_⟩⟩
  · rintro ⟨job, before, after, split, returned, rfl, sameTime, due⟩
    exact ⟨sameTime, before, after, split, returned, due⟩
  · exact ⟨j, before, after, split, returned, rfl, sameTime, due⟩

theorem mem_tickLoop_calls (js : List JobConfig) (s : Scheduler) (j : JobConfig) (t : DateTime) :
    Call.runJob j t ∈ (tickLoop env now js s).2.calls ↔
      Call.runJob j t ∈ s.calls ∨ (t = now ∧ Fires env now j js s) := by
  obtain ⟨new, calls, added⟩ := added_tickLoop env now js s j t
  rw [calls, List.mem_append, added]

end Process

theorem ticks_cons (env : Env) (now : DateTime) (rest : List DateTime) (s : Scheduler) :
    s.ticks env (now :: rest) = (s.tick env now).2.ticks env rest := rfl

@[simp] theorem tick_jobs (env : Env) (now : DateTime) (s : Scheduler) :
    (s.tick env now).2.jobs = s.jobs := tickLoop_jobs env now s.jobs s

@[simp] theorem ticks_jobs (env : Env) (nows : List DateTime) (s : Scheduler) :
    (s.ticks env nows).jobs = s.jobs := by
  induction nows generalizing s with
  | nil => rfl
  | cons now rest ih => exact (ih (s.tick env now).2).trans (tick_jobs env now s)

/-- **Which executions a run of ticks makes.** -/
theorem mem_ticks_calls (env : Env) (nows : List DateTime) (s : Scheduler) (j : JobConfig)
    (t : DateTime) : Call.runJob j t ∈ (s.ticks env nows).calls ↔
      Call.runJob j t ∈ s.calls ∨ ∃ before after, nows = before ++ t :: after ∧
        Fires env t j s.jobs (s.ticks env before) := by
  induction nows generalizing s with
  | nil => simp [ticks]
  | cons now rest ih =>
      rw [ticks_cons, ih, tick_jobs]
      rw [show (s.tick env now).2.calls = (tickLoop env now s.jobs s).2.calls from rfl,
        mem_tickLoop_calls]
      constructor
      · rintro ((old | ⟨rfl, fires⟩) | ⟨before, after, rfl, fires⟩)
        · exact .inl old
        · exact .inr ⟨[], rest, rfl, fires⟩
        · exact .inr ⟨now :: before, after, rfl, fires⟩
      · rintro (old | ⟨before, after, split, fires⟩)
        · exact .inl (.inl old)
        · rcases before with _ | ⟨first, before⟩
          · obtain ⟨rfl, -⟩ := List.cons.inj split
            exact .inl (.inr ⟨rfl, fires⟩)
          · obtain ⟨rfl, splitRest⟩ := List.cons.inj split
            exact .inr ⟨before, after, splitRest, fires⟩

/-! ## Occurrences that are missed -/

/-- The expression's occurrences, as `get_prev` finds them: the latest one strictly
before the given time. -/
def Finds (env : Env) (schedule : String) (occurs : DateTime → Prop) : Prop :=
  ∀ now, ∃ prev, env.getPrev schedule now = .ok prev ∧ IsGreatest {T | occurs T ∧ T < now} prev

/-- Occurrences at least a minute apart. -/
def MinuteApart (occurs : DateTime → Prop) : Prop :=
  ∀ T T', occurs T → occurs T' → T < T' → T + seconds 60 ≤ T'

/-- The tick at `now` does not get to the job, or its last run is less than a minute
ago. -/
def Blocked (env : Env) (now : DateTime) (job : JobConfig) (s : Scheduler) : Prop :=
  (∃ e, (tickLoop env now (s.jobs.takeWhile (· ≠ job)) s).1 = .error e) ∨
    s.ranRecently now job = true

/-- An occurrence after the first tick and at least 30 seconds before the last. -/
def InRange (occurs : DateTime → Prop) (nows : List DateTime) (T : DateTime) : Prop :=
  occurs T ∧ (∃ first ∈ nows.head?, first < T) ∧ ∃ last ∈ nows.getLast?, T + seconds 30 ≤ last

/-- Half a minute after an occurrence the expression is due. -/
theorem isDue_after {env : Env} {schedule : String} {occurs : DateTime → Prop}
    (finds : Finds env schedule occurs) (apart : MinuteApart occurs) {T now : DateTime}
    (occurrence : occurs T) (after : T < now) (within : now ≤ T + seconds 30) :
    isDue env schedule now = .ok true := by
  obtain ⟨prev, found, ⟨occursPrev, before⟩, latest⟩ := finds now
  have le : T ≤ prev := latest ⟨occurrence, after⟩
  have same : prev = T := by
    rcases le.lt_or_eq with less | same
    · have next := apart T prev occurrence occursPrev less
      have longer : seconds 30 < seconds 60 := by decide
      linarith
    · exact same.symm
  rw [isDue, found, same]
  have late : |now - T| ≤ seconds 30 := by
    rw [abs_of_nonneg (by linarith)]
    linarith
  simpa using late

/-- With distinct names no job in front has the name of this one. -/
theorem name_ne_of_front {before after : List JobConfig} {job : JobConfig}
    (distinct : ((before ++ job :: after).map JobConfig.name).Nodup) :
    ∀ j ∈ before, job.name ≠ j.name := by
  intro j front same
  rw [List.map_append, List.map_cons] at distinct
  exact (List.nodup_append.mp distinct).2.2 j.name (List.mem_map_of_mem front) job.name
    List.mem_cons_self same.symm

theorem takeWhile_front {before after : List JobConfig} {job : JobConfig}
    (distinct : ((before ++ job :: after).map JobConfig.name).Nodup) :
    (before ++ job :: after).takeWhile (· ≠ job) = before := by
  have absent : ∀ j ∈ before, j ≠ job := by
    rintro j front rfl
    exact name_ne_of_front distinct j front rfl
  rw [List.takeWhile_append_of_pos (by simpa using absent)]
  simp

/-- A due job is run when its turn comes unless its last run is less than a minute ago;
the jobs in front do not change its record. -/
theorem shouldRun_in_turn (env : Env) (now : DateTime) (s : Scheduler)
    {before after : List JobConfig} {job : JobConfig}
    (distinct : ((before ++ job :: after).map JobConfig.name).Nodup)
    (due : isDue env job.schedule now = .ok true) :
    (tickLoop env now before s).2.shouldRun env now job = .ok true ↔
      ¬ s.ranRecently now job = true := by
  have record : (tickLoop env now before s).2.ranRecently now job = s.ranRecently now job := by
    rw [ranRecently, tickLoop_lastRun env now before s (name_ne_of_front distinct), ranRecently]
  rw [shouldRun, record, due]
  cases s.ranRecently now job <;> simp

/-- With distinct names, a due job is executed exactly by a tick that is not blocked. -/
theorem fires_iff_not_blocked {env : Env} {now : DateTime} {job : JobConfig} {s : Scheduler}
    (member : job ∈ s.jobs) (distinct : (s.jobs.map JobConfig.name).Nodup)
    (due : isDue env job.schedule now = .ok true) :
    Fires env now job s.jobs s ↔ ¬ Blocked env now job s := by
  constructor
  · rintro ⟨before, after, split, ⟨results, returned⟩, fired⟩
    rw [split] at distinct
    rintro (⟨e, raised⟩ | recent)
    · rw [split, takeWhile_front distinct, returned] at raised
      cases raised
    · exact (shouldRun_in_turn env now s distinct due).mp fired recent
  · intro free
    obtain ⟨before, after, split⟩ := List.append_of_mem member
    rw [split] at distinct
    have ready := (shouldRun_in_turn env now s distinct due).mpr fun recent => free (.inr recent)
    cases loop : (tickLoop env now before s).1 with
    | error e =>
        refine absurd (.inl ⟨e, ?_⟩) free
        rw [split, takeWhile_front distinct, loop]
    | ok results => exact ⟨before, after, split, ⟨results, loop⟩, ready⟩

/-- Ticks at most `gap` apart leave no interval of that length empty. -/
theorem exists_tick {gap : Int} (positive : 0 < gap) {nows : List DateTime}
    (gaps : nows.IsChain fun t t' => t' ≤ t + gap) {T : DateTime}
    (first : ∃ first ∈ nows.head?, first ≤ T) (last : ∃ last ∈ nows.getLast?, T + gap ≤ last) :
    ∃ t ∈ nows, T < t ∧ t ≤ T + gap := by
  induction nows with
  | nil => simp at first
  | cons t rest ih =>
      have before : t ≤ T := by simpa using first
      cases rest with
      | nil =>
          have after : T + gap ≤ t := by simpa using last
          linarith
      | cons t' rest =>
          obtain ⟨step, gapsRest⟩ := List.isChain_cons_cons.mp gaps
          rcases le_or_gt t' T with early | late
          · obtain ⟨found, member, inside⟩ := ih gapsRest ⟨t', rfl, early⟩ (by simpa using last)
            exact ⟨found, List.mem_cons_of_mem t member, inside⟩
          · exact ⟨t', by simp, late, by linarith⟩

/-- **When no scheduled run is missed.**  Every occurrence in range has a tick in the
half minute after it, and all of them are followed by an execution in that time
exactly when each of them has a tick there that is not blocked for the job. -/
theorem runs_every_occurrence_iff (env : Env) {jobs : List JobConfig} {job : JobConfig}
    (member : job ∈ jobs) (distinct : (jobs.map JobConfig.name).Nodup)
    {occurs : DateTime → Prop} (finds : Finds env job.schedule occurs)
    (apart : MinuteApart occurs) {nows : List DateTime}
    (gaps : nows.IsChain fun t t' => t' ≤ t + seconds 30) :
    (∀ T, InRange occurs nows T → ∃ t ∈ nows, T < t ∧ t ≤ T + seconds 30) ∧
      ((∀ T, InRange occurs nows T → ∃ t, T < t ∧ t ≤ T + seconds 30 ∧
          Call.runJob job t ∈ ((new jobs).ticks env nows).calls) ↔
        ∀ T, InRange occurs nows T → ∃ before t after, nows = before ++ t :: after ∧
          T < t ∧ t ≤ T + seconds 30 ∧ ¬ Blocked env t job ((new jobs).ticks env before)) := by
  have executed : ∀ T t, occurs T → T < t → t ≤ T + seconds 30 →
      (Call.runJob job t ∈ ((new jobs).ticks env nows).calls ↔ ∃ before after,
        nows = before ++ t :: after ∧ ¬ Blocked env t job ((new jobs).ticks env before)) := by
    intro T t occurrence after within
    have due := isDue_after finds apart occurrence after within
    rw [mem_ticks_calls]
    have fresh : ¬ Call.runJob job t ∈ (new jobs).calls := by simp [new]
    have fires : ∀ before, Fires env t job (new jobs).jobs ((new jobs).ticks env before) ↔
        ¬ Blocked env t job ((new jobs).ticks env before) := by
      intro before
      have same : ((new jobs).ticks env before).jobs = jobs := ticks_jobs env before (new jobs)
      have spec := fires_iff_not_blocked (s := (new jobs).ticks env before)
        (by rw [same]; exact member) (by rw [same]; exact distinct) due
      rw [same] at spec
      exact spec
    simp only [fresh, false_or, fires]
  refine ⟨fun T ⟨_, ⟨first, head, early⟩, last⟩ =>
    exists_tick (by decide) gaps ⟨first, head, early.le⟩ last, ?_⟩
  refine forall_congr' fun T => forall_congr' fun inRange => ?_
  constructor
  · rintro ⟨t, after, within, ran⟩
    obtain ⟨front, back, split, free⟩ := (executed T t inRange.1 after within).mp ran
    exact ⟨front, t, back, split, after, within, free⟩
  · rintro ⟨front, t, back, split, after, within, free⟩
    exact ⟨t, after, within, (executed T t inRange.1 after within).mpr ⟨front, back, split, free⟩⟩

/-- One job, on every minute, that always succeeds. -/
def heartbeat : JobConfig where
  name := "heartbeat"
  command := "curl -fsS https://localhost/ping"
  schedule := "* * * * *"

def onTheMinute (T : DateTime) : Prop := seconds 60 ∣ T

def everyMinute : Env where
  getPrev := fun _ now => .ok ((now - 1) / seconds 60 * seconds 60)
  runJob := fun _ job =>
    { jobName := job.name, exitCode := 0, stdout := "", stderr := "", durationSeconds := 1,
      startedAt := 0, finishedAt := 1 }
  send := fun _ _ => .ok ()

theorem everyMinute_finds : Finds everyMinute heartbeat.schedule onTheMinute := by
  intro now
  refine ⟨_, rfl, ⟨Dvd.intro_left _ rfl, ?_⟩, ?_⟩
  · have floor := Int.ediv_mul_le (now - 1) (show seconds 60 ≠ 0 by decide)
    linarith
  · rintro T ⟨⟨k, rfl⟩, before⟩
    have count : k ≤ (now - 1) / seconds 60 :=
      (Int.le_ediv_iff_mul_le (by decide)).mpr (by linarith)
    rw [mul_comm]
    exact mul_le_mul_of_nonneg_right count (by decide)

theorem onTheMinute_apart : MinuteApart onTheMinute := by
  rintro T T' ⟨k, rfl⟩ ⟨k', rfl⟩ less
  have next : k + 1 ≤ k' := lt_of_mul_lt_mul_left less (by decide)
  calc seconds 60 * k + seconds 60 = seconds 60 * (k + 1) := (mul_add_one _ _).symm
    _ ≤ seconds 60 * k' := mul_le_mul_of_nonneg_left next (by decide)

/-- Ticks at 29, 59, 88 and 118 seconds.  The run at 29 blocks the tick at 88, and at
118 the tolerance is over: the occurrence at 60 is missed. -/
def jittered : List DateTime := [seconds 29, seconds 59, seconds 88, seconds 118]

theorem jittered_misses_occurrence :
    Finds everyMinute heartbeat.schedule onTheMinute ∧ MinuteApart onTheMinute ∧
      jittered.IsChain (fun t t' => t' ≤ t + seconds 30) ∧ jittered.Pairwise (· < ·) ∧
      InRange onTheMinute jittered (seconds 60) ∧
      ¬ ∃ t, seconds 60 < t ∧ t ≤ seconds 60 + seconds 30 ∧
        Call.runJob heartbeat t ∈ ((new [heartbeat]).ticks everyMinute jittered).calls := by
  have calls : ((new [heartbeat]).ticks everyMinute jittered).calls =
      [.runJob heartbeat (seconds 29)] := by
    decide +kernel
  refine ⟨everyMinute_finds, onTheMinute_apart, by decide, by decide, ?_, ?_⟩
  · exact ⟨⟨1, rfl⟩, ⟨_, rfl, by decide⟩, ⟨_, rfl, by decide⟩⟩
  · rintro ⟨t, after, -, ran⟩
    rw [calls, List.mem_singleton] at ran
    cases ran
    revert after
    decide

/-- Ticks at exact half-minute steps serve the occurrence at 60 seconds. -/
def steady : List DateTime := [seconds 5, seconds 35, seconds 65, seconds 95, seconds 125]

theorem steady_serves_occurrence : ∃ t, seconds 60 < t ∧ t ≤ seconds 60 + seconds 30 ∧
    Call.runJob heartbeat t ∈ ((new [heartbeat]).ticks everyMinute steady).calls := by
  refine (runs_every_occurrence_iff everyMinute (List.mem_singleton_self heartbeat) (by decide)
    everyMinute_finds onTheMinute_apart (by decide)).2.mpr ?_ (seconds 60)
      ⟨⟨1, rfl⟩, ⟨_, rfl, by decide⟩, ⟨_, rfl, by decide⟩⟩
  rintro T ⟨⟨k, rfl⟩, ⟨_, ⟨⟩, after⟩, ⟨_, ⟨⟩, before⟩⟩
  have only : k = 1 := by
    simp [seconds] at after before
    lia
  subst only
  refine ⟨[seconds 5, seconds 35], seconds 65, [seconds 95, seconds 125], rfl, by decide,
    by decide, ?_⟩
  rintro (⟨e, raised⟩ | recent)
  · cases raised
  · revert recent
    decide +kernel

end Scheduler

end Cronwatch.Jobs
