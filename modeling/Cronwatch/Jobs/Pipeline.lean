/-
# Jobs.Pipeline -- due, not open, run, recorded, notified

`tick` goes through the jobs of the configuration: it asks the scheduler whether the
job is due and the circuit breaker whether it is open, hands the job to the runner,
records the result in the history, reports it to the breaker and alerts when the
notifier says so.  All parties but the breaker are code handed in, whose answers may
depend on the calls made before; `utcnow` is the clock that the breaker reads.
`mem_ticks_handed` says which jobs a run of ticks hands to the runner.

The report to the breaker is a call of `record`, which `CircuitBreaker` does not have
(`report`).  So with a breaker the first result that comes from the runner ends the
tick, no outcome ever reaches the breaker, and the breaker is enforced exactly in the
runs in which the runner skips every job it is handed (`enforced_iff`).
-/
import Cronwatch.Jobs.CircuitBreaker
import Cronwatch.Jobs.Config
import Cronwatch.Jobs.Execution
import Cronwatch.Theory.Loop

namespace Cronwatch.Jobs

set_option autoImplicit false

open Cronwatch.Theory Cronwatch.Theory.Loop Cronwatch.Runtime

structure PipelineResult where
  jobName : String
  ran : Bool
  success : Option Bool
  notified : Bool
  skipped : Bool
  skipReason : String := ""
deriving DecidableEq

namespace RunPipeline

/-- A call that `tick` makes; the times are those of the clock then. -/
inductive Call where
  | isDue (job : JobConfig)
  | run (job : JobConfig) (now : DateTime)
  | record (job : JobConfig) (result : Option ExecutionResult) (now : DateTime)
  | shouldNotify (result : Option ExecutionResult)
  | send (result : Option ExecutionResult)
deriving DecidableEq

/-- The code handed in.  Every answer may depend on the calls made before. -/
structure Env where
  isDue : List Call → JobConfig → Except PyException Bool
  run : List Call → JobConfig → Except PyException RunnerResult
  record : List Call → Option ExecutionResult → Except PyException Unit
  shouldNotify : List Call → Option ExecutionResult → Except PyException Bool
  send : List Call → Option ExecutionResult → Except PyException Unit
  utcnow : List Call → DateTime

end RunPipeline

structure RunPipeline where
  jobs : List JobConfig
  circuitBreaker : Option CircuitBreaker := none
  calls : List RunPipeline.Call := []

namespace RunPipeline

def made (call : Call) (p : RunPipeline) : RunPipeline := { p with calls := p.calls ++ [call] }

/-- `self._circuit_breaker and self._circuit_breaker.is_open(job.name)`. -/
def circuitOpen (env : Env) (job : JobConfig) (p : RunPipeline) : Bool × RunPipeline :=
  match p.circuitBreaker with
  | none => (false, p)
  | some b =>
      ((b.isOpen (env.utcnow p.calls) job.name).1,
        { p with circuitBreaker := some (b.isOpen (env.utcnow p.calls) job.name).2 })

/-- `self._circuit_breaker.record(job.name, result.success)`, when there is a breaker.
It has `record_failure` and `record_success`, but no `record`. -/
def report (p : RunPipeline) : Except PyException Unit :=
  match p.circuitBreaker with
  | none => .ok ()
  | some _ => .error (.attributeError "'CircuitBreaker' object has no attribute 'record'")

/-- `result.success`. -/
def successOf : Option ExecutionResult → Except PyException Bool
  | none => .error (.attributeError "'NoneType' object has no attribute 'success'")
  | some result => .ok result.success

def skip (job : JobConfig) (skipReason : String) : PipelineResult where
  jobName := job.name
  ran := false
  success := none
  notified := false
  skipped := true
  skipReason := skipReason

/-- The outcome that `tick` lists for a job it ran. -/
def outcome (job : JobConfig) (result : Option ExecutionResult) (notified : Bool) :
    Except PyException (Option PipelineResult) :=
  match successOf result with
  | .error e => .error e
  | .ok success =>
      .ok (some { jobName := job.name, ran := true, success, notified, skipped := false })

/-- The notification, after the result is recorded and reported. -/
def alert (env : Env) (job : JobConfig) (result : Option ExecutionResult) (p : RunPipeline) :
    Except PyException (Option PipelineResult) × RunPipeline :=
  match env.shouldNotify p.calls result with
  | .error e => (.error e, p.made (.shouldNotify result))
  | .ok false => (outcome job result false, p.made (.shouldNotify result))
  | .ok true =>
      match env.send (p.made (.shouldNotify result)).calls result with
      | .error e => (.error e, (p.made (.shouldNotify result)).made (.send result))
      | .ok () => (outcome job result true, (p.made (.shouldNotify result)).made (.send result))

/-- What is done with a result of the runner. -/
def conclude (env : Env) (job : JobConfig) (result : Option ExecutionResult) (p : RunPipeline) :
    Except PyException (Option PipelineResult) × RunPipeline :=
  match env.record p.calls result with
  | .error e => (.error e, p.made (.record job result (env.utcnow p.calls)))
  | .ok () =>
      match p.report with
      | .error e => (.error e, p.made (.record job result (env.utcnow p.calls)))
      | .ok () => alert env job result (p.made (.record job result (env.utcnow p.calls)))

def execute (env : Env) (job : JobConfig) (p : RunPipeline) :
    Except PyException (Option PipelineResult) × RunPipeline :=
  match env.run p.calls job with
  | .error e => (.error e, p.made (.run job (env.utcnow p.calls)))
  | .ok answer =>
      if answer.skipped then
        (.ok (some (skip job answer.skipReason)), p.made (.run job (env.utcnow p.calls)))
      else conclude env job answer.result (p.made (.run job (env.utcnow p.calls)))

/-- The body of the loop for one job; `none` when the job is not due. -/
def process (env : Env) (job : JobConfig) (p : RunPipeline) :
    Except PyException (Option PipelineResult) × RunPipeline :=
  match env.isDue p.calls job with
  | .error e => (.error e, p.made (.isDue job))
  | .ok false => (.ok none, p.made (.isDue job))
  | .ok true =>
      match circuitOpen env job (p.made (.isDue job)) with
      | (true, p) => (.ok (some (skip job "circuit open")), p)
      | (false, p) => execute env job p

def tickLoop (env : Env) :
    List JobConfig → RunPipeline → Except PyException (List PipelineResult) × RunPipeline :=
  loop (process env) Option.toList

def tick (env : Env) (p : RunPipeline) : Except PyException (List PipelineResult) × RunPipeline :=
  tickLoop env p.jobs p

/-- Any number of calls of `tick`; what one of them raises does not stop the next. -/
def ticks (env : Env) : Nat → RunPipeline → RunPipeline
  | 0, p => p
  | n + 1, p => ((ticks env n p).tick env).2

/-- A pipeline with a breaker of this configuration attached. -/
def new (jobs : List JobConfig) (threshold recoveryWindow : Int) : RunPipeline where
  jobs := jobs
  circuitBreaker := some (CircuitBreaker.new threshold recoveryWindow)

/-! ## Which jobs the runner is handed -/

def Call.handed? : Call → Option JobConfig
  | .run job _ => some job
  | _ => none

/-- The jobs handed to the runner, in order. -/
def handed (p : RunPipeline) : List JobConfig := p.calls.filterMap Call.handed?

/-- The scheduler finds the job due, and no breaker is open for it. -/
def Passed (env : Env) (job : JobConfig) (p : RunPipeline) : Prop :=
  env.isDue p.calls job = .ok true ∧ (circuitOpen env job (p.made (.isDue job))).1 = false

section Handed

variable (env : Env) (job : JobConfig) (p : RunPipeline)

theorem handed_made (call : Call) : (p.made call).handed = p.handed ++ call.handed?.toList := by
  cases call <;> simp [made, handed, Call.handed?]

@[simp] theorem circuitOpen_jobs : (circuitOpen env job p).2.jobs = p.jobs := by
  unfold circuitOpen
  split <;> rfl

@[simp] theorem circuitOpen_handed : (circuitOpen env job p).2.handed = p.handed := by
  unfold circuitOpen
  split <;> rfl

theorem alert_handed (result : Option ExecutionResult) :
    (alert env job result p).2.handed = p.handed ∧ (alert env job result p).2.jobs = p.jobs := by
  unfold alert
  split
  · exact ⟨by simp [handed_made, Call.handed?], rfl⟩
  · exact ⟨by simp [handed_made, Call.handed?], rfl⟩
  · split <;> exact ⟨by simp [handed_made, Call.handed?], rfl⟩

theorem conclude_handed (result : Option ExecutionResult) :
    (conclude env job result p).2.handed = p.handed ∧
      (conclude env job result p).2.jobs = p.jobs := by
  unfold conclude
  split
  · exact ⟨by simp [handed_made, Call.handed?], rfl⟩
  · split
    · exact ⟨by simp [handed_made, Call.handed?], rfl⟩
    · obtain ⟨handed, jobs⟩ :=
        alert_handed env job (p.made (.record job result (env.utcnow p.calls))) result
      exact ⟨by rw [handed]; simp [handed_made, Call.handed?], jobs⟩

theorem execute_handed : (execute env job p).2.handed = p.handed ++ [job] ∧
    (execute env job p).2.jobs = p.jobs := by
  unfold execute
  split
  · exact ⟨by simp [handed_made, Call.handed?], rfl⟩
  · split
    · exact ⟨by simp [handed_made, Call.handed?], rfl⟩
    · rename_i answer _ _
      obtain ⟨handed, jobs⟩ :=
        conclude_handed env job (p.made (.run job (env.utcnow p.calls))) answer.result
      exact ⟨by rw [handed]; simp [handed_made, Call.handed?], jobs⟩

/-- **One job**: it is handed to the runner exactly when it passed. -/
theorem mem_process_handed (j : JobConfig) :
    j ∈ (process env job p).2.handed ↔ j ∈ p.handed ∨ (j = job ∧ Passed env job p) := by
  unfold process Passed
  cases answered : env.isDue p.calls job with
  | error e => simp [handed_made, Call.handed?]
  | ok due =>
      cases due with
      | false => simp [handed_made, Call.handed?]
      | true =>
          have same := circuitOpen_handed env job (p.made (.isDue job))
          rcases consult : circuitOpen env job (p.made (.isDue job)) with ⟨isOpen, p'⟩
          rw [consult] at same
          cases isOpen with
          | true => simp [same, handed_made, Call.handed?]
          | false => simp [(execute_handed env job p').1, same, handed_made, Call.handed?]

theorem process_jobs : (process env job p).2.jobs = p.jobs := by
  unfold process
  split
  · rfl
  · rfl
  · have same := circuitOpen_jobs env job (p.made (.isDue job))
    split
    · rename_i p' consult
      rw [consult] at same
      exact same
    · rename_i p' consult
      rw [consult] at same
      exact (execute_handed env job p').2.trans same

end Handed

theorem tick_jobs (env : Env) (p : RunPipeline) : (p.tick env).2.jobs = p.jobs :=
  loop_invariant (fun job _ q same => (process_jobs env job q).trans same) rfl

theorem ticks_jobs (env : Env) (n : Nat) (p : RunPipeline) : (p.ticks env n).jobs = p.jobs := by
  induction n with
  | zero => rfl
  | succ n ih => exact (tick_jobs env (p.ticks env n)).trans ih

/-- The tick comes to the job, nothing in front of it having raised, and lets it pass. -/
def Fires (env : Env) (job : JobConfig) (p : RunPipeline) : Prop :=
  Reaches (process env) Option.toList job p.jobs p (Passed env job)

/-- **Which jobs a run of ticks hands to the runner.** -/
theorem mem_ticks_handed (env : Env) (n : Nat) (p : RunPipeline) (job : JobConfig) :
    job ∈ (p.ticks env n).handed ↔ job ∈ p.handed ∨ ∃ k < n, Fires env job (p.ticks env k) := by
  induction n with
  | zero => simp [ticks]
  | succ n ih =>
      have step : job ∈ ((p.ticks env n).tick env).2.handed ↔
          job ∈ (p.ticks env n).handed ∨ Fires env job (p.ticks env n) := by
        rw [tick, tickLoop, mem_loop_iff fun a s => mem_process_handed env a s job]
        refine or_congr_right ⟨?_, fun fires => ?_⟩
        · rintro ⟨other, before, after, split, returned, rfl, passed⟩
          exact ⟨before, after, split, returned, passed⟩
        · obtain ⟨before, after, split, returned, passed⟩ := fires
          exact ⟨job, before, after, split, returned, rfl, passed⟩
      rw [ticks, step, ih, or_assoc]
      refine or_congr_right ⟨?_, ?_⟩
      · rintro (⟨k, less, fires⟩ | fires)
        · exact ⟨k, Nat.lt_succ_of_lt less, fires⟩
        · exact ⟨n, Nat.lt_succ_self n, fires⟩
      · rintro ⟨k, less, fires⟩
        rcases Nat.lt_succ_iff_lt_or_eq.mp less with earlier | rfl
        · exact .inl ⟨k, earlier, fires⟩
        · exact .inr fires

/-! ## What enforcing the breaker means -/

/-- The outcome of an executed run, as the breaker would be told. -/
def Call.outcome? : Call → Option CircuitBreaker.Event
  | .record job (some result) now =>
      if result.success then some (.recordSuccess job.name) else some (.recordFailure job.name now)
  | _ => none

/-- The failed runs under the name since its last successful one. -/
def failures (jobName : String) (calls : List Call) : List DateTime :=
  CircuitBreaker.streak jobName (calls.filterMap Call.outcome?)

/-- The law of `n` ticks. -/
structure Enforced (env : Env) (threshold recoveryWindow : Int) (n : Nat) (p : RunPipeline) :
    Prop where
  returns : ∀ k < n, ∃ outcomes, ((p.ticks env k).tick env).1 = .ok outcomes
  counts : ∀ k < n, ∀ b ∈ (p.ticks env (k + 1)).circuitBreaker, ∀ jobName,
    (b.consecutiveFailures jobName).1 = (failures jobName (p.ticks env (k + 1)).calls).length
  skips : 1 ≤ threshold → ∀ k < n, ∀ job now,
    .run job now ∈ (p.ticks env (k + 1)).calls.drop (p.ticks env k).calls.length →
    ∀ opened, (failures job.name (p.ticks env k).calls)[threshold.toNat - 1]? = some opened →
      seconds recoveryWindow ≤ now - opened

/-- The code handed in answers without raising. -/
structure Answers (env : Env) : Prop where
  isDue : ∀ calls job, ∃ due, env.isDue calls job = .ok due
  run : ∀ calls job, ∃ answer, env.run calls job = .ok answer
  record : ∀ calls result, env.record calls result = .ok ()
  shouldNotify : ∀ calls result, ∃ notified, env.shouldNotify calls result = .ok notified
  send : ∀ calls result, env.send calls result = .ok ()

/-- The calls after the turn of a job that the runner, if it is handed the job, skips. -/
def turn (env : Env) (calls : List Call) (job : JobConfig) : List Call :=
  if env.isDue calls job = .ok true then
    calls ++ [.isDue job, .run job (env.utcnow (calls ++ [.isDue job]))]
  else calls ++ [.isDue job]

/-- Asked about the jobs in this order, the runner skips every one that is due. -/
def Skips (env : Env) : List JobConfig → List Call → Prop
  | [], _ => True
  | job :: rest, calls =>
      (env.isDue calls job = .ok true →
        ∃ answer, env.run (calls ++ [.isDue job]) job = .ok answer ∧ answer.skipped = true) ∧
      Skips env rest (turn env calls job)

/-! ## Runs in which nothing is executed -/

/-- The breaker knows of no failure. -/
def Fresh (b : CircuitBreaker) : Prop := ∀ jobName, b.get jobName = {}

/-- Nothing has been executed, and the calls so far are these. -/
structure Idle (jobs : List JobConfig) (calls : List Call) (p : RunPipeline) : Prop where
  sameJobs : p.jobs = jobs
  sameCalls : p.calls = calls
  breaker : ∃ b, p.circuitBreaker = some b ∧ Fresh b
  outcomes : calls.filterMap Call.outcome? = []

section Idle

variable {env : Env} {jobs : List JobConfig} {calls : List Call} {p : RunPipeline}

theorem Idle.made (idle : Idle jobs calls p) (call : Call) (silent : call.outcome? = none) :
    Idle jobs (calls ++ [call]) (p.made call) where
  sameJobs := idle.sameJobs
  sameCalls := by rw [RunPipeline.made, idle.sameCalls]
  breaker := idle.breaker
  outcomes := by simp [idle.outcomes, silent]

/-- A fresh breaker is closed, and asking it leaves it fresh. -/
theorem Idle.circuitOpen (idle : Idle jobs calls p) (env : Env) (job : JobConfig) :
    (circuitOpen env job p).1 = false ∧ Idle jobs calls (circuitOpen env job p).2 := by
  obtain ⟨b, attached, fresh⟩ := idle.breaker
  unfold RunPipeline.circuitOpen
  rw [attached]
  dsimp only
  constructor
  · rw [CircuitBreaker.isOpen_eq_false_iff, fresh]
    simp
  · refine ⟨idle.sameJobs, idle.sameCalls, ⟨_, rfl, fun jobName => ?_⟩, idle.outcomes⟩
    rw [CircuitBreaker.isOpen_snd, CircuitBreaker.get_put]
    split
    · exact fresh job.name
    · exact fresh jobName

/-- With a breaker attached the first result ends the tick. -/
theorem conclude_raises {b : CircuitBreaker} (attached : p.circuitBreaker = some b) (env : Env)
    (job : JobConfig) (result : Option ExecutionResult) :
    ∃ e p', conclude env job result p = (.error e, p') := by
  unfold conclude
  split
  · exact ⟨_, _, rfl⟩
  · rw [report, attached]
    exact ⟨_, _, rfl⟩

/-- **One job.**  Its turn returns exactly when the runner does not execute it, and
then nothing has been executed still. -/
theorem process_idle (answers : Answers env) (idle : Idle jobs calls p) (job : JobConfig) :
    (∃ given p', process env job p = (.ok given, p') ∧ Idle jobs (turn env calls job) p' ∧
        (env.isDue calls job = .ok true → ∃ answer,
          env.run (calls ++ [.isDue job]) job = .ok answer ∧ answer.skipped = true)) ∨
      (∃ e p', process env job p = (.error e, p') ∧ env.isDue calls job = .ok true ∧
        ∃ answer, env.run (calls ++ [.isDue job]) job = .ok answer ∧ answer.skipped = false) := by
  have asked := idle.made (.isDue job) rfl
  obtain ⟨due, answered⟩ := answers.isDue calls job
  unfold process turn
  rw [idle.sameCalls, answered]
  cases due with
  | false =>
      rw [if_neg (by simp)]
      exact .inl ⟨none, _, rfl, asked, fun impossible => by cases impossible⟩
  | true =>
      obtain ⟨closed, consulted⟩ := asked.circuitOpen env job
      obtain ⟨answer, ran⟩ := answers.run (calls ++ [.isDue job]) job
      rcases consult : RunPipeline.circuitOpen env job (p.made (.isDue job)) with ⟨isOpen, p'⟩
      rw [consult] at closed consulted
      subst closed
      dsimp only
      rw [execute, consulted.sameCalls, ran, if_pos rfl]
      dsimp only
      cases skipped : answer.skipped with
      | true =>
          rw [if_pos rfl]
          refine .inl ⟨_, _, rfl, ?_, fun _ => ⟨answer, rfl, skipped⟩⟩
          simpa using consulted.made (.run job (env.utcnow (calls ++ [.isDue job]))) rfl
      | false =>
          obtain ⟨b, attached, -⟩ := consulted.breaker
          rw [if_neg Bool.false_ne_true]
          obtain ⟨e, p'', raised⟩ := conclude_raises
            (p := p'.made (.run job (env.utcnow (calls ++ [.isDue job])))) attached env job
            answer.result
          exact .inr ⟨e, p'', raised, rfl, answer, rfl, skipped⟩

/-- **One tick** returns exactly when the runner skips every job it is handed. -/
theorem tickLoop_idle (answers : Answers env) (js : List JobConfig) (idle : Idle jobs calls p) :
    ((∃ outcomes, (tickLoop env js p).1 = .ok outcomes) ↔ Skips env js calls) ∧
      (Skips env js calls → Idle jobs (js.foldl (turn env) calls) (tickLoop env js p).2) := by
  induction js generalizing calls p with
  | nil => exact ⟨iff_of_true ⟨[], rfl⟩ trivial, fun _ => idle⟩
  | cons job rest ih =>
      rw [Skips, List.foldl_cons]
      rcases process_idle answers idle job with
        ⟨given, p', processed, idle', skipped⟩ | ⟨e, p', raised, due, answer, ran, executed⟩
      · obtain ⟨returns, kept⟩ := ih idle'
        constructor
        · rw [tickLoop, loop_cons_returns processed, ← tickLoop, returns]
          exact (and_iff_right skipped).symm
        · intro skips
          rw [tickLoop, loop_cons_of_ok processed]
          exact kept skips.2
      · have executes : ¬ (env.isDue calls job = .ok true → ∃ answer,
            env.run (calls ++ [.isDue job]) job = .ok answer ∧ answer.skipped = true) := by
          intro skips
          obtain ⟨answer', ran', skipped⟩ := skips due
          rw [ran] at ran'
          cases ran'
          rw [executed] at skipped
          cases skipped
        exact ⟨iff_of_false (not_loop_cons_returns raised) fun skips => executes skips.1,
          fun skips => absurd skips.1 executes⟩

theorem skips_append (env : Env) (js js' : List JobConfig) (calls : List Call) :
    Skips env (js ++ js') calls ↔
      Skips env js calls ∧ Skips env js' (js.foldl (turn env) calls) := by
  induction js generalizing calls with
  | nil => simp [Skips]
  | cons job rest ih => rw [List.cons_append, Skips, Skips, ih, List.foldl_cons, and_assoc]

theorem replicate_succ_flatten (n : Nat) (jobs : List JobConfig) :
    (List.replicate (n + 1) jobs).flatten = (List.replicate n jobs).flatten ++ jobs := by
  rw [List.replicate_succ', List.flatten_concat]

/-- **Any number of ticks** in which the runner skips every job it is handed. -/
theorem ticks_idle (answers : Answers env) (jobs : List JobConfig) (threshold recoveryWindow : Int)
    {n : Nat} (skips : Skips env (List.replicate n jobs).flatten []) :
    Idle jobs ((List.replicate n jobs).flatten.foldl (turn env) [])
      ((new jobs threshold recoveryWindow).ticks env n) := by
  induction n with
  | zero => exact ⟨rfl, rfl, ⟨_, rfl, fun _ => rfl⟩, rfl⟩
  | succ n ih =>
      rw [replicate_succ_flatten, skips_append] at skips
      have idle := ih skips.1
      rw [replicate_succ_flatten, List.foldl_append, ticks, tick, idle.sameJobs]
      exact (tickLoop_idle answers jobs idle).2 skips.2

/-- **When the breaker is enforced**, by parties that answer without raising: exactly
when the runner skips every job it is handed, in every tick. -/
theorem enforced_iff (answers : Answers env) (jobs : List JobConfig)
    (threshold recoveryWindow : Int) (n : Nat) :
    Enforced env threshold recoveryWindow n (new jobs threshold recoveryWindow) ↔
      Skips env (List.replicate n jobs).flatten [] := by
  constructor
  · rintro ⟨returns, -, -⟩
    induction n with
    | zero => exact trivial
    | succ n ih =>
        have before := ih fun k less => returns k (Nat.lt_succ_of_lt less)
        have idle := ticks_idle answers jobs threshold recoveryWindow before
        have last := returns n (Nat.lt_succ_self n)
        rw [tick, idle.sameJobs] at last
        rw [replicate_succ_flatten, skips_append]
        exact ⟨before, (tickLoop_idle answers jobs idle).1.mp last⟩
  · intro skips
    have idle : ∀ k ≤ n, Skips env (List.replicate k jobs).flatten [] := by
      intro k le
      obtain ⟨m, rfl⟩ := Nat.exists_eq_add_of_le le
      rw [List.replicate_add, List.flatten_append, skips_append] at skips
      exact skips.1
    have idleAfter := fun k le => ticks_idle answers jobs threshold recoveryWindow (idle k le)
    have noFailures : ∀ k ≤ n, ∀ jobName,
        failures jobName ((new jobs threshold recoveryWindow).ticks env k).calls = [] := by
      intro k le jobName
      rw [failures, (idleAfter k le).sameCalls, (idleAfter k le).outcomes]
      rfl
    refine ⟨fun k less => ?_, fun k less b attached jobName => ?_, ?_⟩
    · have next := idle (k + 1) less
      rw [replicate_succ_flatten, skips_append] at next
      rw [tick, (idleAfter k less.le).sameJobs]
      exact (tickLoop_idle answers jobs (idleAfter k less.le)).1.mpr next.2
    · obtain ⟨b', attached', fresh⟩ := (idleAfter (k + 1) less).breaker
      rw [attached'] at attached
      cases attached
      rw [CircuitBreaker.consecutiveFailures, fresh, noFailures (k + 1) less]
      rfl
    · intro _ k less job now _ opened found
      rw [noFailures k less.le] at found
      cases found

end Idle

/-- A job of one minute past midnight. -/
def nightly : JobConfig where
  name := "nightly"
  command := "exit 1"
  schedule := "1 0 * * *"

/-- A scheduler that finds every job due, a runner with this answer, and parties that
raise nothing. -/
def answering (answer : RunnerResult) : Env where
  isDue := fun _ _ => .ok true
  run := fun _ _ => .ok answer
  record := fun _ _ => .ok ()
  shouldNotify := fun _ _ => .ok true
  send := fun _ _ => .ok ()
  utcnow := fun calls => seconds calls.length

theorem answering_answers (answer : RunnerResult) : Answers (answering answer) where
  isDue := fun _ _ => ⟨true, rfl⟩
  run := fun _ _ => ⟨answer, rfl⟩
  record := fun _ _ => rfl
  shouldNotify := fun _ _ => ⟨true, rfl⟩
  send := fun _ _ => rfl

/-- The runner of a job whose lock another process holds. -/
def locked : RunnerResult where
  result := none
  skipped := true
  skipReason := "Job 'nightly' is already running (pid 4242)"

theorem locked_enforced : Enforced (answering locked) 3 300 2 (new [nightly] 3 300) :=
  (enforced_iff (answering_answers locked) [nightly] 3 300 2).mpr
    ⟨fun _ => ⟨locked, rfl, rfl⟩, fun _ => ⟨locked, rfl, rfl⟩, trivial⟩

/-- The runner of a job that failed. -/
def failed : RunnerResult where
  result := some
    { jobName := "nightly", exitCode := 1, stdout := "", stderr := "", durationSeconds := 1,
      startedAt := 60, finishedAt := 61 }

/-- The first result ends the tick, and the failure is not counted. -/
theorem first_result_raises : Answers (answering failed) ∧
    ((new [nightly] 3 300).tick (answering failed)).1 =
      .error (.attributeError "'CircuitBreaker' object has no attribute 'record'") ∧
    (failures "nightly" ((new [nightly] 3 300).tick (answering failed)).2.calls).length = 1 ∧
    (∀ b ∈ ((new [nightly] 3 300).tick (answering failed)).2.circuitBreaker,
      (b.consecutiveFailures "nightly").1 = 0) ∧
    ¬ Enforced (answering failed) 3 300 1 (new [nightly] 3 300) := by
  have raised : ((new [nightly] 3 300).tick (answering failed)).1 =
      .error (.attributeError "'CircuitBreaker' object has no attribute 'record'") := by
    decide +kernel
  refine ⟨answering_answers failed, raised, by decide +kernel, by decide +kernel, ?_⟩
  rintro ⟨returns, -, -⟩
  obtain ⟨outcomes, returned⟩ := returns 0 Nat.zero_lt_one
  rw [ticks, raised] at returned
  cases returned

end RunPipeline

end Cronwatch.Jobs
