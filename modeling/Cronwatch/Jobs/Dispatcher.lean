/-
# Jobs.Dispatcher -- ticks that drain the queue, run the jobs and push them back

`tick` drains every due entry first and then, entry by entry, calls the runner, the
optional `on_result` callback and the re-scheduling function, and pushes the job
back.  All three are code handed in, each may raise, and what they answer may depend
on every call made before; `calls` is that history.  An exception leaves `tick` at
once, with the queue as it stands.

* `tick_keeps_jobs_iff`: which jobs still have an entry after a tick that raised.
* `rescheduleAsWritten` is the call the source makes, `next_run(job, after=now)`; the
  scheduler's `next_run` has no parameter `after`, so it raises on every entry.
* `ticks_conserve`: with callbacks that return, every tick conserves the jobs.
-/
import Cronwatch.Jobs.Execution
import Cronwatch.Jobs.Queue

namespace Cronwatch.Jobs

set_option autoImplicit false

open Cronwatch.Theory Cronwatch.Runtime

namespace JobDispatcher

/-- A call that `tick` makes. -/
inductive Call where
  | runner (job : JobConfig)
  | onResult (result : ExecutionResult)
  | nextRun (job : JobConfig) (after : DateTime)
deriving DecidableEq

/-- The code handed in.  Every answer may depend on the calls made before. -/
structure Callbacks where
  runner : List Call → JobConfig → Except PyException ExecutionResult
  onResult : Option (List Call → ExecutionResult → Except PyException Unit) := none
  nextRun : List Call → JobConfig → DateTime → Except PyException DateTime

end JobDispatcher

structure JobDispatcher where
  queue : JobQueue
  results : List ExecutionResult := []
  calls : List JobDispatcher.Call := []

namespace JobDispatcher

/-- `self._on_result(result)`, when there is a callback. -/
def report (cb : Callbacks) (result : ExecutionResult) (d : JobDispatcher) :
    Except PyException Unit × JobDispatcher :=
  match cb.onResult with
  | none => (.ok (), d)
  | some onResult => (onResult d.calls result, { d with calls := d.calls ++ [.onResult result] })

/-- `nxt = next_run(job, after=now)` and the push of the job at that time. -/
def reschedule (cb : Callbacks) (now : DateTime) (job : JobConfig) (d : JobDispatcher) :
    Except PyException Unit × JobDispatcher :=
  match cb.nextRun d.calls job now with
  | .error e => (.error e, { d with calls := d.calls ++ [.nextRun job now] })
  | .ok nxt =>
      (.ok (), { d with queue := d.queue.push job nxt, calls := d.calls ++ [.nextRun job now] })

/-- The body of the loop for one drained entry. -/
def process (cb : Callbacks) (now : DateTime) (queued : QueuedJob) (d : JobDispatcher) :
    Except PyException ExecutionResult × JobDispatcher :=
  match cb.runner d.calls queued.job with
  | .error e => (.error e, { d with calls := d.calls ++ [.runner queued.job] })
  | .ok result =>
      match report cb result
          { d with results := d.results ++ [result], calls := d.calls ++ [.runner queued.job] } with
      | (.error e, d) => (.error e, d)
      | (.ok (), d) =>
          match reschedule cb now queued.job d with
          | (.error e, d) => (.error e, d)
          | (.ok (), d) => (.ok result, d)

def tickLoop (cb : Callbacks) (now : DateTime) :
    List QueuedJob → JobDispatcher → Except PyException (List ExecutionResult) × JobDispatcher
  | [], d => (.ok [], d)
  | queued :: rest, d =>
      match process cb now queued d with
      | (.error e, d) => (.error e, d)
      | (.ok result, d) =>
          match tickLoop cb now rest d with
          | (.error e, d) => (.error e, d)
          | (.ok results, d) => (.ok (result :: results), d)

def tick (cb : Callbacks) (now : DateTime) (d : JobDispatcher) :
    Except PyException (List ExecutionResult) × JobDispatcher :=
  tickLoop cb now (d.queue.drainDue now).1 { d with queue := (d.queue.drainDue now).2 }

def seed (cb : Callbacks) (after : DateTime) :
    List JobConfig → JobDispatcher → Except PyException Unit × JobDispatcher
  | [], d => (.ok (), d)
  | job :: rest, d =>
      match reschedule cb after job d with
      | (.error e, d) => (.error e, d)
      | (.ok (), d) => seed cb after rest d

/-- The call `next_run(job, after=now)` on `scheduler.next_run(schedule, now=None)`. -/
def rescheduleAsWritten : List Call → JobConfig → DateTime → Except PyException DateTime :=
  fun _ _ _ => .error (.typeError "next_run() got an unexpected keyword argument 'after'")

/-! ## One entry -/

/-- The jobs that have an entry, each as often as it has one. -/
def jobs (q : JobQueue) : Multiset JobConfig := q.toMultiset.map QueuedJob.job

@[simp] theorem jobs_push (q : JobQueue) (job : JobConfig) (nextRun : DateTime) :
    jobs (q.push job nextRun) = job ::ₘ jobs q := by
  simp [jobs]

@[simp] theorem report_queue (cb : Callbacks) (result : ExecutionResult) (d : JobDispatcher) :
    (report cb result d).2.queue = d.queue := by
  unfold report
  cases cb.onResult <;> rfl

@[simp] theorem report_results (cb : Callbacks) (result : ExecutionResult) (d : JobDispatcher) :
    (report cb result d).2.results = d.results := by
  unfold report
  cases cb.onResult <;> rfl

/-- Re-scheduling pushes the job back, or raises and leaves the queue alone. -/
theorem reschedule_cases (cb : Callbacks) (now : DateTime) (job : JobConfig) (d : JobDispatcher) :
    (∃ e d', reschedule cb now job d = (.error e, d') ∧ d'.queue = d.queue) ∨
      ∃ nxt d', reschedule cb now job d = (.ok (), d') ∧ d'.queue = d.queue.push job nxt := by
  unfold reschedule
  cases cb.nextRun d.calls job now with
  | error e => exact .inl ⟨e, _, rfl, rfl⟩
  | ok nxt => exact .inr ⟨nxt, _, rfl, rfl⟩

/-- Processing an entry pushes its job back, or raises and leaves the queue alone. -/
theorem process_cases (cb : Callbacks) (now : DateTime) (queued : QueuedJob) (d : JobDispatcher) :
    (∃ e d', process cb now queued d = (.error e, d') ∧ d'.queue = d.queue) ∨
      ∃ result nxt d', process cb now queued d = (.ok result, d') ∧
        d'.queue = d.queue.push queued.job nxt := by
  unfold process
  cases cb.runner d.calls queued.job with
  | error e => exact .inl ⟨e, _, rfl, rfl⟩
  | ok result =>
      dsimp only
      have same := report_queue cb result { d with
        results := d.results ++ [result], calls := d.calls ++ [.runner queued.job] }
      rcases reported : report cb result { d with
        results := d.results ++ [result], calls := d.calls ++ [.runner queued.job] } with ⟨e | _, d₁⟩
      · rw [reported] at same
        exact .inl ⟨e, d₁, rfl, same⟩
      · rw [reported] at same
        rcases reschedule_cases cb now queued.job d₁ with ⟨e, d₂, failed, kept⟩ | ⟨nxt, d₂, pushed, queue⟩
        · exact .inl ⟨e, d₂, by simp only [failed], kept.trans same⟩
        · refine .inr ⟨result, nxt, d₂, by simp only [pushed], ?_⟩
          rw [queue, same]

/-! ## A tick that raises -/

/-- The position in the drained list of the entry whose processing raises. -/
def raisedAt (cb : Callbacks) (now : DateTime) : List QueuedJob → JobDispatcher → Option Nat
  | [], _ => none
  | queued :: rest, d =>
      match process cb now queued d with
      | (.error _, _) => some 0
      | (.ok _, d) => (raisedAt cb now rest d).map (· + 1)

theorem tickLoop_raised (cb : Callbacks) (now : DateTime) (due : List QueuedJob) (k : Nat)
    (d : JobDispatcher) (raised : raisedAt cb now due d = some k) :
    k < due.length ∧ (∃ e, (tickLoop cb now due d).1 = .error e) ∧
      jobs (tickLoop cb now due d).2.queue =
        ↑((due.take k).map QueuedJob.job) + jobs d.queue := by
  induction due generalizing k d with
  | nil => cases raised
  | cons queued rest ih =>
      rw [raisedAt] at raised
      rw [tickLoop]
      rcases process_cases cb now queued d with ⟨e, d₁, failed, kept⟩ | ⟨result, nxt, d₁, done, pushed⟩
      · rw [failed] at raised ⊢
        cases raised
        exact ⟨by simp, ⟨e, rfl⟩, by simp [kept]⟩
      · rw [done] at raised ⊢
        obtain ⟨k, later, rfl⟩ := Option.map_eq_some_iff.mp raised
        obtain ⟨inside, ⟨e, failed⟩, left⟩ := ih k d₁ later
        rcases loop : tickLoop cb now rest d₁ with ⟨answer, d₂⟩
        rw [loop] at failed left
        cases failed
        simp only [loop]
        refine ⟨by simpa using inside, ⟨e, rfl⟩, ?_⟩
        rw [left, pushed, jobs_push, List.take_succ_cons, List.map_cons, ← Multiset.cons_coe,
          Multiset.cons_add, Multiset.add_cons]

/-- The jobs of the drained queue are those of the due entries and of the later ones. -/
theorem jobs_drainDue (q : JobQueue) (now : DateTime) :
    ↑((q.drainDue now).1.map QueuedJob.job) + jobs (q.drainDue now).2 = jobs q := by
  obtain ⟨-, -, -, whole⟩ := JobQueue.drainDue_spec now q
  rw [jobs, jobs, ← whole, Multiset.map_add, Multiset.map_coe]

theorem mem_jobs_drained (q : JobQueue) (now : DateTime) (job : JobConfig) :
    job ∈ jobs (q.drainDue now).2 ↔ ∃ other ∈ q.toMultiset, now < other.nextRun ∧ other.job = job := by
  obtain ⟨-, due, later, whole⟩ := JobQueue.drainDue_spec now q
  simp only [jobs, Multiset.mem_map]
  constructor
  · rintro ⟨other, member, rfl⟩
    exact ⟨other, whole ▸ Multiset.mem_add.mpr (.inr member), later other member, rfl⟩
  · rintro ⟨other, member, notDue, rfl⟩
    rw [← whole, Multiset.mem_add] at member
    rcases member with drained | kept
    · exact absurd (due other drained) (not_le.mpr notDue)
    · exact ⟨other, kept, rfl⟩

/-- **Which jobs survive a tick that raises** at position `k` of the drained list:
all of them exactly when each entry from `k` on belongs to a job that has another
entry later than `now` or is among the first `k` entries. -/
theorem tick_keeps_jobs_iff (cb : Callbacks) (now : DateTime) (d : JobDispatcher) (k : Nat)
    (raised : raisedAt cb now (d.queue.drainDue now).1
      { d with queue := (d.queue.drainDue now).2 } = some k) :
    (∃ e, (tick cb now d).1 = .error e) ∧
      ((∀ job ∈ jobs d.queue, job ∈ jobs (tick cb now d).2.queue) ↔
        ∀ entry ∈ (d.queue.drainDue now).1.drop k,
          (∃ other ∈ d.queue.toMultiset, now < other.nextRun ∧ other.job = entry.job) ∨
            ∃ earlier ∈ (d.queue.drainDue now).1.take k, earlier.job = entry.job) := by
  obtain ⟨-, failed, left⟩ := tickLoop_raised cb now _ k _ raised
  refine ⟨failed, ?_⟩
  have split : (d.queue.drainDue now).1.take k ++ (d.queue.drainDue now).1.drop k =
      (d.queue.drainDue now).1 := List.take_append_drop k _
  have survives : ∀ job, job ∈ jobs (tick cb now d).2.queue ↔
      (∃ earlier ∈ (d.queue.drainDue now).1.take k, earlier.job = job) ∨
        ∃ other ∈ d.queue.toMultiset, now < other.nextRun ∧ other.job = job := by
    intro job
    rw [tick, left, Multiset.mem_add, mem_jobs_drained, Multiset.mem_coe, List.mem_map]
  constructor
  · intro keeps entry member
    have drained : entry ∈ (d.queue.drainDue now).1 := List.mem_of_mem_drop member
    have queued : entry.job ∈ jobs d.queue := by
      rw [← jobs_drainDue d.queue now]
      exact Multiset.mem_add.mpr (.inl (List.mem_map_of_mem drained))
    exact ((survives entry.job).mp (keeps entry.job queued)).symm
  · intro covered job queued
    rw [survives]
    rw [← jobs_drainDue d.queue now, Multiset.mem_add, mem_jobs_drained] at queued
    rcases queued with drained | later
    · obtain ⟨entry, member, rfl⟩ := List.mem_map.mp (Multiset.mem_coe.mp drained)
      rw [← split, List.mem_append] at member
      rcases member with early | late
      · exact .inl ⟨entry, early, rfl⟩
      · exact (covered entry late).symm
    · exact .inr later

/-- As the source is written, the first due entry always raises. -/
theorem raisedAt_asWritten (cb : Callbacks) (written : cb.nextRun = rescheduleAsWritten)
    (now : DateTime) (queued : QueuedJob) (rest : List QueuedJob) (d : JobDispatcher) :
    raisedAt cb now (queued :: rest) d = some 0 := by
  have fails : ∃ e, (process cb now queued d).1 = .error e := by
    unfold process reschedule
    rw [written]
    cases cb.runner d.calls queued.job with
    | error e => exact ⟨e, rfl⟩
    | ok result =>
        dsimp only
        split
        · rename_i e d' _
          exact ⟨e, rfl⟩
        · exact ⟨_, rfl⟩
  obtain ⟨e, failed⟩ := fails
  rcases processed : process cb now queued d with ⟨answer, d₁⟩
  rw [processed] at failed
  cases failed
  rw [raisedAt, processed]

/-- One entry of a configuration file. -/
def nightly : JobConfig where
  name := "nightly"
  command := "/usr/local/bin/backup.sh"
  schedule := "0 2 * * *"

def exitZero (job : JobConfig) : ExecutionResult where
  jobName := job.name
  exitCode := 0
  stdout := "ok"
  stderr := ""
  durationSeconds := 0
  startedAt := 0
  finishedAt := 0

/-- A runner that returns, with the re-scheduling call of the source. -/
def asWritten : Callbacks where
  runner := fun _ job => .ok (exitZero job)
  nextRun := rescheduleAsWritten

/-- A runner that raises, with re-scheduling one hour later. -/
def brokenRunner : Callbacks where
  runner := fun _ _ => .error (.foreign "runner")
  nextRun := fun _ _ after => .ok (after + seconds 3600)

/-- One due job is gone after the tick: its re-scheduling raises, and equally when the
runner raises and re-scheduling would have worked. -/
theorem tick_loses_job :
    ((tick asWritten 0 { queue := JobQueue.empty.push nightly 0 }).1 =
        .error (.typeError "next_run() got an unexpected keyword argument 'after'") ∧
      jobs (tick asWritten 0 { queue := JobQueue.empty.push nightly 0 }).2.queue = 0) ∧
    ((tick brokenRunner 0 { queue := JobQueue.empty.push nightly 0 }).1 =
        .error (.foreign "runner") ∧
      jobs (tick brokenRunner 0 { queue := JobQueue.empty.push nightly 0 }).2.queue = 0) ∧
    nightly ∈ jobs (JobQueue.empty.push nightly 0) := by
  decide +kernel

/-- A job with a second, later entry survives the same tick. -/
theorem tick_keeps_job_queued_twice :
    nightly ∈ jobs (tick asWritten 0
      { queue := (JobQueue.empty.push nightly 0).push nightly 5 }).2.queue := by
  have drained : (((JobQueue.empty.push nightly 0).push nightly 5).drainDue 0).1 = [⟨0, nightly⟩] := by
    decide +kernel
  refine (tick_keeps_jobs_iff asWritten 0 { queue := (JobQueue.empty.push nightly 0).push nightly 5 }
    0 (by decide +kernel)).2.mpr (fun entry member => .inl ⟨⟨5, nightly⟩, ?_, by decide, ?_⟩)
      nightly (by decide +kernel)
  · decide +kernel
  · rw [drained, List.drop_zero, List.mem_singleton] at member
    rw [member]

/-! ## Ticks whose callbacks return -/

/-- The callbacks return, and re-scheduling answers a time strictly after `after`. -/
structure Callbacks.Returns (cb : Callbacks) : Prop where
  runner : ∀ calls job, ∃ result, cb.runner calls job = .ok result
  onResult : ∀ callback, cb.onResult = some callback → ∀ calls result, callback calls result = .ok ()
  nextRun : ∀ calls job after, ∃ nxt, cb.nextRun calls job after = .ok nxt ∧ after < nxt

/-- The jobs handed to the runner, in order. -/
def runs (calls : List Call) : List JobConfig :=
  calls.filterMap fun
    | .runner job => some job
    | _ => none

theorem report_returns {cb : Callbacks} (returns : cb.Returns) (result : ExecutionResult)
    (d : JobDispatcher) :
    (report cb result d).1 = .ok () ∧ runs (report cb result d).2.calls = runs d.calls := by
  unfold report
  cases callback : cb.onResult with
  | none => exact ⟨rfl, rfl⟩
  | some onResult =>
      refine ⟨returns.onResult onResult callback d.calls result, ?_⟩
      simp [runs]

/-- What processing one entry changes when the callbacks return. -/
theorem process_returns {cb : Callbacks} (returns : cb.Returns) (now : DateTime)
    (queued : QueuedJob) (d : JobDispatcher) :
    ∃ result nxt d', process cb now queued d = (.ok result, d') ∧ now < nxt ∧
      d'.queue = d.queue.push queued.job nxt ∧ d'.results = d.results ++ [result] ∧
      runs d'.calls = runs d.calls ++ [queued.job] := by
  obtain ⟨result, ran⟩ := returns.runner d.calls queued.job
  let started : JobDispatcher :=
    { d with results := d.results ++ [result], calls := d.calls ++ [.runner queued.job] }
  obtain ⟨reported, sameRuns⟩ := report_returns returns result started
  obtain ⟨nxt, answer, later⟩ := returns.nextRun (report cb result started).2.calls queued.job now
  refine ⟨result, nxt, (reschedule cb now queued.job (report cb result started).2).2, ?_, later, ?_⟩
  · have split : report cb result started = (.ok (), (report cb result started).2) := by rw [← reported]
    simp only [process, ran]
    rw [show report cb result { d with
      results := d.results ++ [result], calls := d.calls ++ [.runner queued.job] } =
        (.ok (), (report cb result started).2) from split]
    simp [reschedule, answer]
  · have queueSame := report_queue cb result started
    have resultsSame := report_results cb result started
    simp only [reschedule, answer]
    refine ⟨by rw [queueSame], by rw [resultsSame], ?_⟩
    simp only [runs, List.filterMap_append] at sameRuns ⊢
    rw [sameRuns]
    simp [started]

/-- What the loop over the drained entries changes when the callbacks return. -/
theorem tickLoop_returns {cb : Callbacks} (returns : cb.Returns) (now : DateTime)
    (due : List QueuedJob) (d : JobDispatcher) :
    ∃ results pushed d', tickLoop cb now due d = (.ok results, d') ∧
      d'.queue.toMultiset = pushed + d.queue.toMultiset ∧
      pushed.map QueuedJob.job = ↑(due.map QueuedJob.job) ∧ (∀ y ∈ pushed, now < y.nextRun) ∧
      results.length = due.length ∧ d'.results = d.results ++ results ∧
      runs d'.calls = runs d.calls ++ due.map QueuedJob.job := by
  induction due generalizing d with
  | nil => exact ⟨[], 0, d, rfl, by simp, rfl, by simp, rfl, by simp, by simp⟩
  | cons queued rest ih =>
      obtain ⟨result, nxt, d₁, body, later, queue₁, results₁, runs₁⟩ :=
        process_returns returns now queued d
      obtain ⟨results, pushed, d₂, loop, queue₂, jobs₂, later₂, count₂, results₂, runs₂⟩ := ih d₁
      refine ⟨result :: results, ⟨nxt, queued.job⟩ ::ₘ pushed, d₂, ?_, ?_, ?_, ?_, ?_, ?_, ?_⟩
      · simp only [tickLoop, body, loop]
      · rw [queue₂, queue₁, JobQueue.toMultiset_push, Multiset.cons_add, Multiset.add_cons]
      · rw [Multiset.map_cons, jobs₂]
        rfl
      · intro y member
        rcases Multiset.mem_cons.mp member with rfl | inRest
        · exact later
        · exact later₂ y inRest
      · simp [count₂]
      · rw [results₂, results₁, List.append_assoc, List.singleton_append]
      · rw [runs₂, runs₁, List.append_assoc, List.singleton_append, List.map_cons]

/-- What one tick at `now` conserves and does. -/
structure Conserves (cb : Callbacks) (now : DateTime) (d : JobDispatcher)
    (results : List ExecutionResult) (d' : JobDispatcher) : Prop where
  jobs : jobs d'.queue = jobs d.queue
  ran : ∃ due : List QueuedJob, ↑due = d.queue.toMultiset.filter (fun x => x.nextRun ≤ now) ∧
    due.Pairwise (fun x y => x.nextRun ≤ y.nextRun) ∧ results.length = due.length ∧
    runs d'.calls = runs d.calls ++ due.map QueuedJob.job
  collected : d'.results = d.results ++ results
  idle : ∀ y ∈ d'.queue.toMultiset, now < y.nextRun
  again : tick cb now d' = (.ok [], d')

theorem tick_of_idle (cb : Callbacks) {now : DateTime} {d : JobDispatcher}
    (idle : ∀ y ∈ d.queue.toMultiset, now < y.nextRun) : tick cb now d = (.ok [], d) := by
  have nothing : d.queue.popDue now = (none, d.queue) := by
    rcases d.queue.popDue_cases now with ⟨unchanged, -⟩ | ⟨top, -, due, least, -⟩
    · exact unchanged
    · exact absurd due (not_le.mpr (idle top least.1))
  rw [tick, JobQueue.drainDue_of_none nothing]
  rfl

theorem tick_conserves {cb : Callbacks} (returns : cb.Returns) (now : DateTime)
    (d : JobDispatcher) : ∃ results d', tick cb now d = (.ok results, d') ∧
      Conserves cb now d results d' := by
  obtain ⟨sorted, due, kept, whole⟩ := JobQueue.drainDue_spec now d.queue
  obtain ⟨results, pushed, d', loop, queue, jobs', later, count, collected, ran⟩ :=
    tickLoop_returns returns now (d.queue.drainDue now).1
      { d with queue := (d.queue.drainDue now).2 }
  have idle : ∀ y ∈ d'.queue.toMultiset, now < y.nextRun := by
    intro y member
    rw [queue, Multiset.mem_add] at member
    exact member.elim (later y) (kept y)
  have allDue : ↑(d.queue.drainDue now).1 = d.queue.toMultiset.filter (fun x => x.nextRun ≤ now) := by
    rw [← whole, Multiset.filter_add, Multiset.filter_eq_self.mpr (by simpa using due),
      Multiset.filter_eq_nil.mpr (fun y member => not_le.mpr (kept y member)), add_zero]
  refine ⟨results, d', loop, ?_, ⟨_, allDue, sorted, count, ran⟩, collected, idle,
    tick_of_idle cb idle⟩
  calc jobs d'.queue
      = pushed.map QueuedJob.job + jobs (d.queue.drainDue now).2 := by
        rw [jobs, queue, Multiset.map_add]; rfl
    _ = jobs d.queue := by rw [jobs', jobs_drainDue]

/-- A run of ticks, with what each of them returned or raised. -/
def ticks (cb : Callbacks) :
    List DateTime → JobDispatcher → List (Except PyException (List ExecutionResult)) × JobDispatcher
  | [], d => ([], d)
  | now :: rest, d =>
      ((tick cb now d).1 :: (ticks cb rest (tick cb now d).2).1, (ticks cb rest (tick cb now d).2).2)

/-- **Conservation.**  With callbacks that return and a re-scheduling function that
answers a later time, every tick of every run conserves the jobs, runs each due entry
once in order of time and leaves nothing due, and `results` is what all ticks
returned, in order. -/
theorem ticks_conserve {cb : Callbacks} (returns : cb.Returns) (d : JobDispatcher)
    (nows : List DateTime) :
    (∀ before now after, nows = before ++ now :: after → ∃ results,
      (tick cb now (ticks cb before d).2).1 = .ok results ∧
        Conserves cb now (ticks cb before d).2 results (tick cb now (ticks cb before d).2).2) ∧
      jobs (ticks cb nows d).2.queue = jobs d.queue ∧
      ∃ answers : List (List ExecutionResult), (ticks cb nows d).1 = answers.map .ok ∧
        (ticks cb nows d).2.results = d.results ++ answers.flatten := by
  refine ⟨fun before now _ _ => ?_, ?_⟩
  · obtain ⟨results, d', answer, conserved⟩ := tick_conserves returns now (ticks cb before d).2
    rw [answer]
    exact ⟨results, rfl, conserved⟩
  · induction nows generalizing d with
    | nil => exact ⟨rfl, [], rfl, by simp [ticks]⟩
    | cons now rest ih =>
        obtain ⟨results, d', answer, conserved⟩ := tick_conserves returns now d
        obtain ⟨sameJobs, answers, outcomes, collected⟩ := ih d'
        simp only [ticks, answer]
        refine ⟨sameJobs.trans conserved.jobs, results :: answers, ?_, ?_⟩
        · rw [outcomes, List.map_cons]
        · rw [collected, conserved.collected, List.flatten_cons, List.append_assoc]

/-- Re-scheduling one hour later. -/
def hourly : Callbacks where
  runner := fun _ job => .ok (exitZero job)
  nextRun := fun _ _ after => .ok (after + seconds 3600)

theorem hourly_returns : hourly.Returns where
  runner := fun _ job => ⟨exitZero job, rfl⟩
  onResult := fun _ impossible => by cases impossible
  nextRun := fun _ _ after => ⟨after + seconds 3600, rfl, lt_add_of_pos_right after (by decide)⟩

/-- Three ticks, the last one two days late, over one job that is queued twice. -/
theorem hourly_conserves :
    jobs (ticks hourly [0, seconds 10, seconds 172800]
      { queue := (JobQueue.empty.push nightly 0).push nightly 5 }).2.queue =
        nightly ::ₘ nightly ::ₘ 0 := by
  rw [(ticks_conserve hourly_returns { queue := (JobQueue.empty.push nightly 0).push nightly 5 }
    [0, seconds 10, seconds 172800]).2.1]
  decide +kernel

end JobDispatcher

end Cronwatch.Jobs
