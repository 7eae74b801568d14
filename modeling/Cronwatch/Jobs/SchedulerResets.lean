/-
# Jobs.SchedulerResets -- a scheduler whose records are reset

`reset_job` forgets the last run of a job, so that the guard of a minute does not hold it off.
The records are what a log of runs and resets says (`recorded_run`), whatever the times of the
ticks are, forwards or backwards, and whatever raises in them.

`resets`: two runs under one name with no reset of it between them are a minute apart; a reset
answers whether the name has run since it was reset last; and a job that is due runs at the next
tick after its reset, unless a job in front of it raises.
-/
import Cronwatch.Jobs.SchedulerTicks

namespace Cronwatch.Jobs.Scheduler

set_option autoImplicit false

open Cronwatch.Theory Cronwatch.Theory.HoldOff Cronwatch.Theory.Loop Cronwatch.Runtime

inductive Event where
  | tick (now : DateTime)
  | resetJob (jobName : String)

structure System where
  scheduler : Scheduler
  /-- The runs and the resets, in order. -/
  log : List (Entry String DateTime) := []

variable (env : Env)

def System.step (s : System) : Event → System
  | .tick now =>
      let scheduler := (s.scheduler.tick env now).2
      { scheduler
        log := s.log ++ (scheduler.log.drop s.scheduler.log.length).map fun run => .act run.1 run.2 }
  | .resetJob jobName =>
      { scheduler := (s.scheduler.resetJob jobName).2, log := s.log ++ [.release jobName] }

def runSystem (jobs : List JobConfig) (events : List Event) : System :=
  events.foldl (System.step env) { scheduler := new jobs }

theorem runSystem_append_single (jobs : List JobConfig) (before : List Event) (event : Event) :
    runSystem env jobs (before ++ [event]) = (runSystem env jobs before).step env event := by
  rw [runSystem, List.foldl_append]
  rfl

theorem jobs_runSystem (jobs : List JobConfig) (events : List Event) :
    (runSystem env jobs events).scheduler.jobs = jobs := by
  induction events using List.reverseRecOn with
  | nil => rfl
  | append_singleton before event ih =>
      rw [runSystem_append_single]
      cases event with
      | tick now => exact (tick_jobs env now _).trans ih
      | resetJob jobName => exact ih

/-! ## The records are what the log says -/

section Records

variable {env} {now : DateTime} {log₀ : List (Entry String DateTime)} {s₀ s : Scheduler}

/-- A part of a tick has run these, and has left the records that the log says. -/
def Ran (log₀ : List (Entry String DateTime)) (s₀ s : Scheduler) : Prop :=
  ∃ more, s.log = s₀.log ++ more ∧
    Recorded (fun _ => minuteOver) (log₀ ++ more.map fun run => .act run.1 run.2) s.lastRun

theorem Ran.process (ran : Ran log₀ s₀ s) (job : JobConfig) : Ran log₀ s₀ (s.process env now job).2 := by
  obtain ⟨more, grew, recorded⟩ := ran
  by_cases accepted : s.shouldRun env now job = .ok true
  · obtain ⟨alerts, processed, silent, -⟩ := process_of_accepted accepted
    have none_ : alerts.filterMap Call.execution? = [] := filterMap_alerts silent fun _ => rfl
    have logged : (s.process env now job).2.log = s.log ++ [(job.name, now)] := by
      rw [processed]
      simp [Scheduler.log, Call.execution?, none_]
    refine ⟨more ++ [(job.name, now)], by rw [logged, grew, List.append_assoc], ?_⟩
    rw [processed, List.map_append, ← List.append_assoc]
    exact recorded.act (free_of_accepted accepted)
  · rw [process_of_declined accepted]
    exact ⟨more, grew, recorded⟩

variable (env)

/-- **The records** are the last runs that have not been reset. -/
theorem recorded_run (jobs : List JobConfig) (events : List Event) :
    Recorded (fun _ => minuteOver) (runSystem env jobs events).log
      (runSystem env jobs events).scheduler.lastRun := by
  induction events using List.reverseRecOn with
  | nil => exact .start _
  | append_singleton before event ih =>
      rw [runSystem_append_single]
      cases event with
      | resetJob jobName => exact ih.release jobName
      | tick now =>
          have untouched : Ran (runSystem env jobs before).log (runSystem env jobs before).scheduler
              (runSystem env jobs before).scheduler := ⟨[], by simp, by simpa using ih⟩
          have ran : Ran (runSystem env jobs before).log (runSystem env jobs before).scheduler
              ((runSystem env jobs before).scheduler.tick env now).2 := by
            rw [tick, tickLoop_eq_loop]
            exact loop_invariant (fun job _ s kept => kept.process job) untouched
          obtain ⟨more, grew, recorded⟩ := ran
          rw [System.step]
          dsimp only
          rw [grew, List.drop_left]
          exact recorded

end Records

/-! ## Runs and resets -/

theorem minuteOver_trans {t t' t'' : DateTime} (first : minuteOver t t') (second : minuteOver t' t'') :
    minuteOver t t'' := by
  unfold minuteOver at first second ⊢
  have minute : (0 : Int) ≤ seconds 60 := by decide
  linarith

/-- The name has run and has not been reset since. -/
def RanSinceReset (jobName : String) (log : List (Entry String DateTime)) : Prop :=
  ∃ before t after, log = before ++ .act jobName t :: after ∧ .release jobName ∉ after

/-- A job that is due, at a tick that comes right after its reset. -/
theorem fires_after_reset {jobs : List JobConfig} {s : Scheduler} (same : s.jobs = jobs)
    (distinct : (jobs.map JobConfig.name).Nodup) {job : JobConfig} (member : job ∈ jobs) {now : DateTime}
    (due : isDue env job.schedule now = .ok true) :
    Fires env now job jobs (s.resetJob job.name).2 ↔
      ¬ ∃ e, (tickLoop env now (jobs.takeWhile (· ≠ job)) (s.resetJob job.name).2).1 = .error e := by
  subst same
  have kept : (s.resetJob job.name).2.jobs = s.jobs := rfl
  have forgotten : (s.resetJob job.name).2.ranRecently now job = false := by
    rw [ranRecently, resetJob]
    dsimp only
    rw [Dict.get?_erase, if_pos rfl]
  rw [← kept] at member distinct ⊢
  rw [fires_iff_not_blocked member distinct due, Blocked, forgotten]
  simp

/-- **Runs, resets and the guard of a minute.**  After any ticks and resets: two runs under one name
with no reset of it between them are a minute apart, whatever the clock did; a reset answers whether
the name has run since it was reset last; and where names are different, the tick after a reset
executes the job that was reset, when it is due, unless the turn of a job in front of it raises:
the execution is among the calls that the tick adds. -/
theorem resets (jobs : List JobConfig) (events : List Event) :
    let s := runSystem env jobs events
    (∀ before name t between t' after, s.log = before ++ .act name t :: (between ++ .act name t' :: after) →
      .release name ∉ between → t + seconds 60 ≤ t') ∧
    (∀ name, (s.scheduler.resetJob name).1 = true ↔ RanSinceReset name s.log) ∧
    ((jobs.map JobConfig.name).Nodup → ∀ job ∈ jobs, ∀ now, isDue env job.schedule now = .ok true →
      let reset := (s.scheduler.resetJob job.name).2
      ∃ added, (reset.tick env now).2.calls = reset.calls ++ added ∧ (Call.runJob job now ∈ added ↔
        ¬ ∃ e, (tickLoop env now (jobs.takeWhile (· ≠ job)) reset).1 = .error e)) := by
  intro s
  have recorded := recorded_run env jobs events
  refine ⟨fun before name t between t' after split kept => ?_, fun name => ?_,
    fun distinct job member now due => ?_⟩
  · have apart : minuteOver t t' := recorded.apart_of_kept (fun _ _ _ _ => minuteOver_trans) split kept
    unfold minuteOver at apart
    linarith
  · rw [resetJob, recorded.stamp, HoldOff.lastAct_isSome_iff, RanSinceReset]
  · have same : s.scheduler.jobs = jobs := jobs_runSystem env jobs events
    have kept : (s.scheduler.resetJob job.name).2.jobs = jobs := same
    obtain ⟨added, calls, runs⟩ :=
      added_tickLoop env now jobs (s.scheduler.resetJob job.name).2 job now
    refine ⟨added, ?_, ?_⟩
    · rw [tick, kept]
      exact calls
    · rw [runs, fires_after_reset env same distinct member due]
      simp only [true_and]

end Cronwatch.Jobs.Scheduler
