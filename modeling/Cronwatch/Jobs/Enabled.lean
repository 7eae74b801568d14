/-
# Jobs.Enabled -- what `enabled` does on the way to a run

Three paths hand a job to `run_job` or to a runner: the ticks of the scheduler, the
ticks of a seeded dispatcher and the ticks of the pipeline.  None of them reads the
field `enabled`.  The scheduler and the pipeline run a disabled job as soon as their
own tests let it pass; the dispatcher, as it is written, runs none at all, because
`seed` raises before it has queued a job (`seeded_runs_nothing`).

What keeps a disabled job from running is its schedule alone.  `disabled_never_run` puts
the three paths together: none runs when none is due, and where no exception, no second
job of its name and no breaker comes between, only then.
-/
import Cronwatch.Jobs.Dispatcher
import Cronwatch.Jobs.Pipeline
import Cronwatch.Jobs.SchedulerTicks

namespace Cronwatch.Jobs.Enabled

set_option autoImplicit false

open Cronwatch.Theory Cronwatch.Theory.Loop Cronwatch.Runtime

/-! ## The dispatcher as it is written -/

/-- The code handed to a dispatcher, with the re-scheduling call of the source. -/
def callbacks (runner : List JobDispatcher.Call → JobConfig → Except PyException ExecutionResult)
    (onResult : Option (List JobDispatcher.Call → ExecutionResult → Except PyException Unit)) :
    JobDispatcher.Callbacks where
  runner := runner
  onResult := onResult
  nextRun := JobDispatcher.rescheduleAsWritten

section Dispatcher

variable (runner : List JobDispatcher.Call → JobConfig → Except PyException ExecutionResult)
  (onResult : Option (List JobDispatcher.Call → ExecutionResult → Except PyException Unit))

/-- Seeding stops at the first job, before it is queued. -/
theorem seed_queues_nothing (after : DateTime) (jobs : List JobConfig) (d : JobDispatcher) :
    (JobDispatcher.seed (callbacks runner onResult) after jobs d).2.queue = d.queue ∧
      JobDispatcher.runs (JobDispatcher.seed (callbacks runner onResult) after jobs d).2.calls =
        JobDispatcher.runs d.calls := by
  cases jobs with
  | nil => exact ⟨rfl, rfl⟩
  | cons job rest =>
      rw [JobDispatcher.seed, JobDispatcher.reschedule]
      exact ⟨rfl, by simp [JobDispatcher.runs, callbacks, JobDispatcher.rescheduleAsWritten]⟩

theorem ticks_of_empty (cb : JobDispatcher.Callbacks) (nows : List DateTime) {d : JobDispatcher}
    (empty : d.queue = JobQueue.empty) : (JobDispatcher.ticks cb nows d).2 = d := by
  induction nows with
  | nil => rfl
  | cons now rest ih =>
      have idle : ∀ y ∈ d.queue.toMultiset, now < y.nextRun := by
        intro y member
        rw [empty] at member
        simp at member
      rw [JobDispatcher.ticks, JobDispatcher.tick_of_idle cb idle]
      exact ih

/-- A dispatcher that is seeded, and then ticks. -/
def seeded (cb : JobDispatcher.Callbacks) (after : DateTime) (jobs : List JobConfig)
    (nows : List DateTime) : JobDispatcher :=
  (JobDispatcher.ticks cb nows (JobDispatcher.seed cb after jobs { queue := JobQueue.empty }).2).2

theorem seeded_runs_nothing (after : DateTime) (jobs : List JobConfig) (nows : List DateTime) :
    JobDispatcher.runs (seeded (callbacks runner onResult) after jobs nows).calls = [] := by
  obtain ⟨queue, runs⟩ :=
    seed_queues_nothing runner onResult after jobs { queue := JobQueue.empty }
  rw [seeded, ticks_of_empty _ nows queue, runs]
  rfl

end Dispatcher

/-! ## All three paths -/

/-- A pipeline over the jobs, with or without a breaker, of any state. -/
def pipeline (jobs : List JobConfig) (circuitBreaker : Option CircuitBreaker) : RunPipeline where
  jobs := jobs
  circuitBreaker := circuitBreaker

/-- The scheduler executes no disabled job exactly when none is due in its turn. -/
theorem scheduler_spares_iff (env : Scheduler.Env) (jobs : List JobConfig) (nows : List DateTime) :
    (∀ job t, .runJob job t ∈ ((Scheduler.new jobs).ticks env nows).calls → job.enabled = true) ↔
      ∀ before now after, nows = before ++ now :: after → ∀ job, job.enabled = false →
        ¬ Scheduler.DueInTurn env now job ((Scheduler.new jobs).ticks env before) := by
  have executed : ∀ job t, .runJob job t ∈ ((Scheduler.new jobs).ticks env nows).calls ↔
      ∃ before after, nows = before ++ t :: after ∧
        Scheduler.DueInTurn env t job ((Scheduler.new jobs).ticks env before) := by
    intro job t
    have fresh : .runJob job t ∉ (Scheduler.new jobs).calls := by simp [Scheduler.new]
    rw [Scheduler.mem_ticks_calls, or_iff_right fresh]
    refine exists_congr fun before => exists_congr fun after => and_congr_right fun _ => ?_
    rw [← Scheduler.fires_iff_dueInTurn, Scheduler.ticks_jobs]
  constructor
  · intro spared before now after split job disabled due
    have enabled := spared job now ((executed job now).mpr ⟨before, after, split, due⟩)
    rw [disabled] at enabled
    cases enabled
  · intro spared job t ran
    obtain ⟨before, after, split, due⟩ := (executed job t).mp ran
    by_contra disabled
    exact spared before t after split job (by simpa using disabled) due

/-- The pipeline hands over no disabled job exactly when none passes its tests. -/
theorem pipeline_spares_iff (env : RunPipeline.Env) (jobs : List JobConfig)
    (circuitBreaker : Option CircuitBreaker) (n : Nat) :
    (∀ job ∈ ((pipeline jobs circuitBreaker).ticks env n).handed, job.enabled = true) ↔
      ∀ k < n, ∀ job, job.enabled = false →
        ¬ RunPipeline.Fires env job ((pipeline jobs circuitBreaker).ticks env k) := by
  have handed : ∀ job, job ∈ ((pipeline jobs circuitBreaker).ticks env n).handed ↔
      ∃ k < n, RunPipeline.Fires env job ((pipeline jobs circuitBreaker).ticks env k) := by
    intro job
    have fresh : job ∉ (pipeline jobs circuitBreaker).handed := by
      simp [pipeline, RunPipeline.handed]
    rw [RunPipeline.mem_ticks_handed, or_iff_right fresh]
  constructor
  · intro spared k less job disabled fires
    have enabled := spared job ((handed job).mpr ⟨k, less, fires⟩)
    rw [disabled] at enabled
    cases enabled
  · intro spared job member
    obtain ⟨k, less, fires⟩ := (handed job).mp member
    by_contra disabled
    exact spared k less job (by simpa using disabled) fires

/-! ## Schedules of disabled jobs -/

/-- At none of these times is the schedule of a disabled job due. -/
def NoneDue (env : Scheduler.Env) (jobs : List JobConfig) (nows : List DateTime) : Prop :=
  ∀ now ∈ nows, ∀ job ∈ jobs, job.enabled = false →
    Scheduler.isDue env job.schedule now ≠ .ok true

instance (env : Scheduler.Env) (jobs : List JobConfig) (nows : List DateTime) :
    Decidable (NoneDue env jobs nows) :=
  inferInstanceAs (Decidable (∀ now ∈ nows, ∀ job ∈ jobs, job.enabled = false →
    Scheduler.isDue env job.schedule now ≠ .ok true))

/-- The pipeline's scheduler finds no disabled job due, whenever it is asked. -/
def NeverDue (env : RunPipeline.Env) (jobs : List JobConfig) : Prop :=
  ∀ calls, ∀ job ∈ jobs, job.enabled = false → env.isDue calls job ≠ .ok true

/-- The jobs have names of their own, every schedule has a previous run and every alert
is sent. -/
structure Undisturbed (env : Scheduler.Env) (jobs : List JobConfig) : Prop where
  distinct : (jobs.map JobConfig.name).Nodup
  getPrev : ∀ job ∈ jobs, ∀ now, ∃ prev, env.getPrev job.schedule now = .ok prev
  send : ∀ calls result, env.send calls result = .ok ()

/-- The parties of the pipeline answer without raising, the runner has a result for what
it does not skip, and the scheduler says the same of a job every time. -/
structure Steady (env : RunPipeline.Env) : Prop where
  answers : RunPipeline.Answers env
  result : ∀ calls job answer, env.run calls job = .ok answer → answer.skipped = false →
    answer.result ≠ none
  isDue : ∀ calls job, env.isDue calls job = env.isDue [] job

section Scheduler

variable {env : Scheduler.Env} {jobs : List JobConfig}

theorem scheduler_spares (nows : List DateTime) (noneDue : NoneDue env jobs nows) :
    ∀ job t, .runJob job t ∈ ((Scheduler.new jobs).ticks env nows).calls → job.enabled = true := by
  refine (scheduler_spares_iff env jobs nows).mpr ?_
  rintro before now after rfl job disabled ⟨front, back, split, -, -, due⟩
  have accepted := (Scheduler.due_eq_true_iff env now _ job).mp due
  rw [Scheduler.ticks_jobs] at split
  have member : job ∈ jobs := by
    rw [show jobs = front ++ job :: back from split]
    exact List.mem_append_right front List.mem_cons_self
  exact noneDue now (by simp) job member disabled (Scheduler.isDue_of_accepted accepted)

/-- With schedules that are read and alerts that are sent, no turn raises. -/
theorem process_returns (undisturbed : Undisturbed env jobs) (now : DateTime) {job : JobConfig}
    (member : job ∈ jobs) (s : Scheduler) :
    ∃ given s', s.process env now job = (.ok given, s') := by
  obtain ⟨prev, found⟩ := undisturbed.getPrev job member now
  unfold Scheduler.process Scheduler.shouldRun Scheduler.isDue
  rw [found]
  split
  · rename_i e failed
    split at failed <;> cases failed
  · exact ⟨_, _, rfl⟩
  · dsimp only
    rw [undisturbed.send]
    split <;> exact ⟨_, _, rfl⟩

/-- Every record is of a run of one of the jobs. -/
def RecordsRuns (jobs : List JobConfig) (s : Scheduler) : Prop :=
  ∀ name last, s.lastRun.get? name = some last →
    ∃ job ∈ jobs, job.name = name ∧ .runJob job last ∈ s.calls

theorem recordsRuns_process (env : Scheduler.Env) (now : DateTime) {job : JobConfig}
    (member : job ∈ jobs) {s : Scheduler} (records : RecordsRuns jobs s) :
    RecordsRuns jobs (s.process env now job).2 := by
  by_cases accepted : s.shouldRun env now job = .ok true
  · obtain ⟨alerts, processed, -, -⟩ := Scheduler.process_of_accepted accepted
    rw [processed]
    intro name last recorded
    dsimp only at recorded ⊢
    rw [Dict.get?_set] at recorded
    split at recorded
    · rename_i same
      cases recorded
      exact ⟨job, member, same.symm, by simp⟩
    · obtain ⟨j, inJobs, named, ran⟩ := records name last recorded
      exact ⟨j, inJobs, named, List.mem_append_left _ ran⟩
  · rw [Scheduler.process_of_declined accepted]
    exact records

theorem recordsRuns_ticks (env : Scheduler.Env) (jobs : List JobConfig) (nows : List DateTime) :
    RecordsRuns jobs ((Scheduler.new jobs).ticks env nows) := by
  induction nows using List.reverseRecOn with
  | nil =>
      rintro name last ⟨⟩
  | append_singleton before now ih =>
      rw [Scheduler.ticks_append_single, Scheduler.tick, Scheduler.ticks_jobs,
        Scheduler.tickLoop_eq_loop]
      exact loop_invariant (fun job member s records => recordsRuns_process env now member records) ih

/-- What was run after some of the ticks was run. -/
theorem mem_calls_of_front {before after : List DateTime} {job : JobConfig} {t : DateTime}
    (ran : .runJob job t ∈ ((Scheduler.new jobs).ticks env before).calls) :
    .runJob job t ∈ ((Scheduler.new jobs).ticks env (before ++ after)).calls := by
  rw [Scheduler.mem_ticks_calls] at ran ⊢
  rcases ran with old | ⟨front, back, rfl, fires⟩
  · exact .inl old
  · exact .inr ⟨front, back ++ after, by simp, fires⟩

/-- Where nothing disturbs the ticks, a disabled job that is due is run. -/
theorem noneDue_of_spared (undisturbed : Undisturbed env jobs) {nows : List DateTime}
    (spared : ∀ job t, .runJob job t ∈ ((Scheduler.new jobs).ticks env nows).calls →
      job.enabled = true) : NoneDue env jobs nows := by
  intro now tick job member disabled due
  obtain ⟨before, after, rfl⟩ := List.append_of_mem tick
  obtain ⟨front, back, split⟩ := List.append_of_mem member
  have distinct := undisturbed.distinct
  have inFront : ∀ j ∈ front, j ∈ jobs := fun j among => by
    rw [split]
    exact List.mem_append_left _ among
  apply (scheduler_spares_iff env jobs _).mp spared before now after rfl job disabled
  refine ⟨front, back, (Scheduler.ticks_jobs env before _).trans split, ?_, ?_, ?_⟩
  · rw [Scheduler.tickLoop_eq_loop]
    exact (loop_returns (I := fun _ => True) (fun j among s _ =>
      let ⟨given, s', returned⟩ := process_returns undisturbed now (inFront j among) s
      ⟨given, s', returned, trivial⟩) trivial).1
  · rw [split] at distinct
    exact fun j among _ same => Scheduler.name_ne_of_front distinct j among same.symm
  · rw [Scheduler.due_eq_true_iff, Scheduler.shouldRun, if_neg, due]
    -- a record of the name would be one of the job itself, which has not run
    intro recent
    unfold Scheduler.ranRecently at recent
    split at recent
    · cases recent
    · rename_i last recorded
      obtain ⟨j, inJobs, named, ran⟩ := recordsRuns_ticks env jobs before job.name last recorded
      obtain rfl := List.inj_on_of_nodup_map distinct inJobs member named
      have enabled := spared j last (mem_calls_of_front ran)
      rw [disabled] at enabled
      cases enabled

end Scheduler

section Pipeline

variable {env : RunPipeline.Env} {jobs : List JobConfig}

theorem pipeline_spares (circuitBreaker : Option CircuitBreaker) (n : Nat)
    (neverDue : NeverDue env jobs) :
    ∀ job ∈ ((pipeline jobs circuitBreaker).ticks env n).handed, job.enabled = true := by
  refine (pipeline_spares_iff env jobs circuitBreaker n).mpr ?_
  rintro k - job disabled ⟨front, back, split, -, due, -⟩
  rw [RunPipeline.ticks_jobs] at split
  have member : job ∈ jobs := by
    rw [show jobs = front ++ job :: back from split]
    exact List.mem_append_right front List.mem_cons_self
  exact neverDue _ job member disabled due

theorem circuitOpen_of_none (env : RunPipeline.Env) (job : JobConfig) {p : RunPipeline}
    (alone : p.circuitBreaker = none) : RunPipeline.circuitOpen env job p = (false, p) := by
  rw [RunPipeline.circuitOpen, alone]

/-- Without a breaker, and with steady parties, a result is recorded and notified. -/
theorem conclude_returns (steady : Steady env) (job : JobConfig) (result : ExecutionResult)
    {p : RunPipeline} (alone : p.circuitBreaker = none) :
    ∃ given p', RunPipeline.conclude env job (some result) p = (.ok given, p') ∧
      p'.circuitBreaker = none := by
  unfold RunPipeline.conclude RunPipeline.report
  rw [steady.answers.record, alone]
  dsimp only
  generalize notifying : p.made (.record job (some result) (env.utcnow p.calls)) = q
  have bare : q.circuitBreaker = none := by
    rw [← notifying]
    exact alone
  obtain ⟨notified, decided⟩ := steady.answers.shouldNotify q.calls (some result)
  rw [RunPipeline.alert, decided]
  cases notified with
  | false => exact ⟨_, _, rfl, bare⟩
  | true =>
      dsimp only
      rw [steady.answers.send]
      exact ⟨_, _, rfl, bare⟩

/-- Without a breaker, and with steady parties, no turn raises. -/
theorem pipeline_process_returns (steady : Steady env) (job : JobConfig) {p : RunPipeline}
    (alone : p.circuitBreaker = none) :
    ∃ given p', RunPipeline.process env job p = (.ok given, p') ∧ p'.circuitBreaker = none := by
  obtain ⟨due, asked⟩ := steady.answers.isDue p.calls job
  unfold RunPipeline.process
  rw [asked]
  cases due with
  | false => exact ⟨_, _, rfl, alone⟩
  | true =>
      dsimp only
      rw [circuitOpen_of_none env job (p := p.made (.isDue job)) alone]
      dsimp only
      obtain ⟨answer, ran⟩ := steady.answers.run (p.made (.isDue job)).calls job
      rw [RunPipeline.execute, ran]
      dsimp only
      cases skipped : answer.skipped with
      | true => exact ⟨_, _, rfl, alone⟩
      | false =>
          obtain ⟨result, given⟩ := Option.ne_none_iff_exists'.mp
            (steady.result _ job answer ran skipped)
          rw [if_neg Bool.false_ne_true, given]
          exact conclude_returns steady job result alone

/-- Without a breaker, and with steady parties, a disabled job that is due is handed over. -/
theorem neverDue_of_spared (steady : Steady env) {n : Nat} (some_ : 0 < n)
    (spared : ∀ job ∈ ((pipeline jobs none).ticks env n).handed, job.enabled = true) :
    NeverDue env jobs := by
  intro calls job member disabled due
  obtain ⟨front, back, split⟩ := List.append_of_mem member
  apply (pipeline_spares_iff env jobs none n).mp spared 0 some_ job disabled
  have inFront : (∃ outcomes, (RunPipeline.tickLoop env front (pipeline jobs none)).1 = .ok outcomes) ∧
      (RunPipeline.tickLoop env front (pipeline jobs none)).2.circuitBreaker = none :=
    loop_returns (I := fun p : RunPipeline => p.circuitBreaker = none)
      (fun j _ p alone => pipeline_process_returns steady j alone) rfl
  refine ⟨front, back, split, inFront.1, ?_, ?_⟩
  · rw [steady.isDue, ← steady.isDue calls]
    exact due
  · rw [circuitOpen_of_none env job]
    exact inFront.2

end Pipeline

/-- **When no disabled job is run**: when the schedule of none is due.  The scheduler runs
none if at none of the times of its ticks a disabled job is due, and the pipeline hands none
over if its scheduler finds none due; the dispatcher runs nothing.  Where nothing disturbs
the ticks, a disabled job that is due does run. -/
theorem disabled_never_run (jobs : List JobConfig)
    (schedulerEnv : Scheduler.Env) (nows : List DateTime)
    (runner : List JobDispatcher.Call → JobConfig → Except PyException ExecutionResult)
    (onResult : Option (List JobDispatcher.Call → ExecutionResult → Except PyException Unit))
    (after : DateTime) (dispatcherNows : List DateTime)
    (pipelineEnv : RunPipeline.Env) (circuitBreaker : Option CircuitBreaker) (n : Nat) :
    (NoneDue schedulerEnv jobs nows →
        ∀ job t, .runJob job t ∈ ((Scheduler.new jobs).ticks schedulerEnv nows).calls →
          job.enabled = true) ∧
      (∀ job ∈ JobDispatcher.runs
          (seeded (callbacks runner onResult) after jobs dispatcherNows).calls,
        job.enabled = true) ∧
      (NeverDue pipelineEnv jobs →
        ∀ job ∈ ((pipeline jobs circuitBreaker).ticks pipelineEnv n).handed, job.enabled = true) ∧
      (Undisturbed schedulerEnv jobs →
        (∀ job t, .runJob job t ∈ ((Scheduler.new jobs).ticks schedulerEnv nows).calls →
          job.enabled = true) → NoneDue schedulerEnv jobs nows) ∧
      (Steady pipelineEnv → 0 < n →
        (∀ job ∈ ((pipeline jobs none).ticks pipelineEnv n).handed, job.enabled = true) →
          NeverDue pipelineEnv jobs) := by
  refine ⟨scheduler_spares nows, ?_, pipeline_spares circuitBreaker n,
    fun undisturbed spared => noneDue_of_spared undisturbed spared,
    fun steady some_ spared => neverDue_of_spared steady some_ spared⟩
  rw [seeded_runs_nothing]
  rintro job ⟨⟩

/-- A disabled job of half past four. -/
def sealedBackup : JobConfig where
  name := "backup"
  command := "/usr/local/bin/backup.sh"
  schedule := "30 4 * * *"
  enabled := false

/-- Half past four every day, and every minute for the other expressions. -/
def halfPastFour : Scheduler.Env where
  getPrev := fun schedule now =>
    if schedule = "30 4 * * *" then
      .ok ((now - 1 - seconds 16200) / seconds 86400 * seconds 86400 + seconds 16200)
    else Scheduler.everyMinute.getPrev schedule now
  runJob := Scheduler.everyMinute.runJob
  send := Scheduler.everyMinute.send

/-- A pipeline whose scheduler finds the heartbeat due and nothing else. -/
def heartbeatOnly : RunPipeline.Env :=
  { RunPipeline.answering RunPipeline.failed with
    isDue := fun _ job => .ok (job.name = "heartbeat") }

/-- Just past midnight the heartbeat runs, and the backup does not. -/
theorem sealed_is_spared :
    let jobs := [Scheduler.heartbeat, sealedBackup]
    let nows := [seconds 65, seconds 125]
    let ticked := (Scheduler.new jobs).ticks halfPastFour nows
    let piped := (pipeline jobs none).ticks heartbeatOnly 2
    ticked.executions Scheduler.heartbeat = nows ∧
      piped.handed = [Scheduler.heartbeat, Scheduler.heartbeat] ∧
      (∀ job t, .runJob job t ∈ ticked.calls → job.enabled = true) ∧
      ∀ job ∈ piped.handed, job.enabled = true := by
  intro jobs nows ticked piped
  have noneDue : NoneDue halfPastFour jobs nows := by decide +kernel
  have neverDue : NeverDue heartbeatOnly jobs := by
    intro calls job member disabled
    rcases List.mem_pair.mp member with rfl | rfl
    · cases disabled
    · show Except.ok (decide (sealedBackup.name = "heartbeat")) ≠ _
      decide
  obtain ⟨scheduler, -, handed, -, -⟩ := disabled_never_run jobs halfPastFour nows
    (fun _ _ => .ok (Scheduler.everyMinute.runJob [] Scheduler.heartbeat)) none 0 [] heartbeatOnly
    none 2
  exact ⟨by decide +kernel, by decide +kernel, scheduler noneDue, handed neverDue⟩

/-- A job that is switched off. -/
def retired : JobConfig where
  name := "retired"
  command := "/usr/local/bin/old-backup.sh"
  schedule := "* * * * *"
  enabled := false

/-- The scheduler runs it five seconds after a minute, and the pipeline hands it to its
runner. -/
theorem retired_is_run : retired.enabled = false ∧
    .runJob retired (seconds 65) ∈
      ((Scheduler.new [retired]).ticks Scheduler.everyMinute [seconds 65]).calls ∧
    retired ∈ ((pipeline [retired] none).ticks
      (RunPipeline.answering RunPipeline.failed) 1).handed := by
  decide +kernel

end Cronwatch.Jobs.Enabled
