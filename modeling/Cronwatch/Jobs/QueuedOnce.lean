/-
# Jobs.QueuedOnce -- a job that is pushed again while it is queued

`push` adds an entry, also where the queue has one of that job.  The queue is used by its
own calls and by those of a `JobDispatcher`: `seed` pushes jobs, and `tick` drains the due
ones and pushes them again.

What `seed` and `tick` push can be read off the calls that they make (`pushesIn`), and
`latest` is the time of the latest push of every name, by whichever of them.  `QueuedOnce`
says that a name has at most one entry, with that time.  A tick never breaks it;
`queuedOnce_iff` says what does.
-/
import Cronwatch.Jobs.Dispatcher
import Cronwatch.Theory.KeyedBag
import Cronwatch.Theory.Splits
import Mathlib.Data.List.Infix
import Mathlib.Tactic.Abel

namespace Cronwatch.Jobs

set_option autoImplicit false

open Cronwatch.Theory Cronwatch.Runtime

def QueuedJob.name (queued : QueuedJob) : String := queued.job.name

namespace JobDispatcher

/-! ## What the calls have pushed -/

section Pushes

variable (cb : Callbacks)

/-- The entry that is pushed after the call. -/
def pushOf (before : List Call) : Call → Option QueuedJob
  | .nextRun job after =>
      match cb.nextRun before job after with
      | .error _ => none
      | .ok nxt => some ⟨nxt, job⟩
  | .runner _ | .onResult _ => none

/-- What is pushed after calls that follow those before. -/
def pushesIn (before calls : List Call) : List QueuedJob := collect (pushOf cb) before calls

/-- The dispatcher has made these calls, and pushed nothing but what they say. -/
structure Logged (d d' : JobDispatcher) (made : List Call) : Prop where
  calls : d'.calls = d.calls ++ made
  queue : d'.queue.toMultiset = ↑(pushesIn cb d.calls made) + d.queue.toMultiset

end Pushes

variable {cb : Callbacks}

theorem Logged.refl (d : JobDispatcher) : Logged cb d d [] where
  calls := (List.append_nil _).symm
  queue := (zero_add _).symm

theorem Logged.pushesIn_append {d d' : JobDispatcher} {calls : List Call}
    (first : Logged cb d d' calls) (calls' : List Call) :
    pushesIn cb d.calls (calls ++ calls') =
      pushesIn cb d.calls calls ++ pushesIn cb d'.calls calls' := by
  rw [pushesIn, collect_append, ← first.calls]
  rfl

theorem Logged.trans {d d' d'' : JobDispatcher} {calls calls' : List Call}
    (first : Logged cb d d' calls) (second : Logged cb d' d'' calls') :
    Logged cb d d'' (calls ++ calls') where
  calls := by rw [second.calls, first.calls, List.append_assoc]
  queue := by
    rw [second.queue, first.queue, first.pushesIn_append, ← Multiset.coe_add]
    abel

theorem runs_append (first second : List Call) : runs (first ++ second) = runs first ++ runs second :=
  List.filterMap_append

theorem report_logged (cb : Callbacks) (result : ExecutionResult) (d : JobDispatcher) :
    ∃ calls, Logged cb d (report cb result d).2 calls ∧ pushesIn cb d.calls calls = [] ∧
      runs calls = [] := by
  rw [report]
  cases cb.onResult with
  | none => exact ⟨[], .refl d, rfl, rfl⟩
  | some onResult => exact ⟨[.onResult result], ⟨rfl, (zero_add _).symm⟩, rfl, rfl⟩

/-- Re-scheduling makes one call, and pushes the job or raises. -/
theorem reschedule_logged (cb : Callbacks) (now : DateTime) (job : JobConfig) (d : JobDispatcher) :
    Logged cb d (reschedule cb now job d).2 [.nextRun job now] ∧
      ((∃ e, (reschedule cb now job d).1 = .error e ∧ pushesIn cb d.calls [.nextRun job now] = []) ∨
        ∃ nxt, (reschedule cb now job d).1 = .ok () ∧
          pushesIn cb d.calls [.nextRun job now] = [⟨nxt, job⟩]) := by
  have pushed : pushesIn cb d.calls [.nextRun job now] =
      (pushOf cb d.calls (.nextRun job now)).toList := by
    rw [pushesIn, collect, collect, List.append_nil]
  rw [reschedule]
  cases answer : cb.nextRun d.calls job now with
  | error e =>
      rw [pushOf, answer] at pushed
      exact ⟨⟨rfl, by rw [pushed]; exact (zero_add _).symm⟩, .inl ⟨e, rfl, pushed⟩⟩
  | ok nxt =>
      rw [pushOf, answer] at pushed
      refine ⟨⟨rfl, ?_⟩, .inr ⟨nxt, rfl, pushed⟩⟩
      rw [pushed, JobQueue.toMultiset_push]
      rfl

/-- Processing an entry runs its job and pushes it again, or raises. -/
theorem process_logged (cb : Callbacks) (now : DateTime) (queued : QueuedJob) (d : JobDispatcher) :
    ∃ calls, Logged cb d (process cb now queued d).2 calls ∧ runs calls = [queued.job] ∧
      ((∃ e, (process cb now queued d).1 = .error e ∧ pushesIn cb d.calls calls = []) ∨
        ∃ result nxt, (process cb now queued d).1 = .ok result ∧
          pushesIn cb d.calls calls = [⟨nxt, queued.job⟩]) := by
  rw [process]
  cases cb.runner d.calls queued.job with
  | error e =>
      exact ⟨[.runner queued.job], ⟨rfl, (zero_add _).symm⟩, rfl, .inl ⟨e, rfl, rfl⟩⟩
  | ok result =>
      dsimp only
      have ran : Logged cb d { d with
          results := d.results ++ [result], calls := d.calls ++ [.runner queued.job] }
          [.runner queued.job] := ⟨rfl, (zero_add _).symm⟩
      have none_ : pushesIn cb d.calls [.runner queued.job] = [] := rfl
      generalize ({ d with
        results := d.results ++ [result], calls := d.calls ++ [.runner queued.job] } :
          JobDispatcher) = d₁ at ran ⊢
      obtain ⟨calls, reported, silent, idle⟩ := report_logged cb result d₁
      rcases outcome : report cb result d₁ with ⟨e | _, d₂⟩
      · rw [outcome] at reported
        refine ⟨_, ran.trans reported, ?_, .inl ⟨e, rfl, ?_⟩⟩
        · rw [runs_append, idle]
          rfl
        · rw [ran.pushesIn_append, none_, silent]
          rfl
      · rw [outcome] at reported
        dsimp only
        obtain ⟨rescheduled, pushed⟩ := reschedule_logged cb now queued.job d₂
        have whole : pushesIn cb d.calls ([.runner queued.job] ++ (calls ++ [.nextRun queued.job now])) =
            pushesIn cb d₂.calls [.nextRun queued.job now] := by
          rw [ran.pushesIn_append, reported.pushesIn_append, none_, silent]
          rfl
        have once : runs ([.runner queued.job] ++ (calls ++ [.nextRun queued.job now])) =
            [queued.job] := by
          rw [runs_append, runs_append, idle]
          rfl
        rcases last : reschedule cb now queued.job d₂ with ⟨e | _, d₃⟩
        · rw [last] at rescheduled pushed
          refine ⟨_, ran.trans (reported.trans rescheduled), once, .inl ⟨e, rfl, ?_⟩⟩
          rcases pushed with ⟨_, -, nothing⟩ | ⟨_, impossible, -⟩
          · rw [whole, nothing]
          · cases impossible
        · rw [last] at rescheduled pushed
          rcases pushed with ⟨_, impossible, -⟩ | ⟨nxt, -, again⟩
          · cases impossible
          · refine ⟨_, ran.trans (reported.trans rescheduled), once, .inr ⟨result, nxt, rfl, ?_⟩⟩
            rw [whole, again]

/-- **The loop of a tick** runs drained entries in their order, each once, and pushes jobs
of them again. -/
theorem tickLoop_logged (cb : Callbacks) (now : DateTime) (due : List QueuedJob) (d : JobDispatcher) :
    ∃ calls, Logged cb d (tickLoop cb now due d).2 calls ∧
      runs calls <+: due.map QueuedJob.job ∧
      (pushesIn cb d.calls calls).map QueuedJob.name <+: due.map QueuedJob.name := by
  induction due generalizing d with
  | nil => exact ⟨[], .refl d, List.nil_prefix, List.nil_prefix⟩
  | cons queued rest ih =>
      obtain ⟨calls, processed, ran, pushed⟩ := process_logged cb now queued d
      rw [tickLoop]
      rcases body : process cb now queued d with ⟨e | result, d₁⟩
      · rw [body] at processed pushed
        refine ⟨calls, processed, ?_, ?_⟩
        · rw [ran, List.map_cons]
          exact ⟨_, rfl⟩
        · rcases pushed with ⟨_, -, nothing⟩ | ⟨_, _, impossible, -⟩
          · rw [nothing]
            exact List.nil_prefix
          · cases impossible
      · rw [body] at processed pushed
        obtain ⟨calls', later, ranLater, pushedLater⟩ := ih d₁
        have whole : Logged cb d (tickLoop cb now rest d₁).2 (calls ++ calls') :=
          processed.trans later
        refine ⟨calls ++ calls', ?_, ?_, ?_⟩
        · dsimp only
          cases loop : tickLoop cb now rest d₁ with
          | mk answer d₂ =>
              rw [loop] at whole
              cases answer with
              | error e => exact whole
              | ok results => exact whole
        · rw [runs_append, ran, List.map_cons, List.singleton_append]
          exact List.prefix_cons_inj queued.job |>.mpr ranLater
        · rcases pushed with ⟨_, impossible, -⟩ | ⟨_, nxt, -, again⟩
          · cases impossible
          · rw [processed.pushesIn_append, again, List.singleton_append, List.map_cons, List.map_cons]
            exact List.prefix_cons_inj queued.name |>.mpr pushedLater

/-- Seeding pushes jobs of the list, in order. -/
theorem seed_logged (cb : Callbacks) (after : DateTime) (jobs : List JobConfig) (d : JobDispatcher) :
    ∃ calls, Logged cb d (seed cb after jobs d).2 calls ∧
      (pushesIn cb d.calls calls).map QueuedJob.name <+: jobs.map JobConfig.name := by
  induction jobs generalizing d with
  | nil => exact ⟨[], .refl d, List.nil_prefix⟩
  | cons job rest ih =>
      obtain ⟨rescheduled, pushed⟩ := reschedule_logged cb after job d
      rw [seed]
      rcases body : reschedule cb after job d with ⟨e | _, d₁⟩
      · rw [body] at rescheduled pushed
        refine ⟨_, rescheduled, ?_⟩
        rcases pushed with ⟨_, -, nothing⟩ | ⟨_, impossible, -⟩
        · rw [nothing]
          exact List.nil_prefix
        · cases impossible
      · rw [body] at rescheduled pushed
        obtain ⟨calls, later, pushedLater⟩ := ih d₁
        refine ⟨_, rescheduled.trans later, ?_⟩
        rcases pushed with ⟨_, impossible, -⟩ | ⟨nxt, -, first⟩
        · cases impossible
        · rw [rescheduled.pushesIn_append, first, List.singleton_append, List.map_cons, List.map_cons]
          exact List.prefix_cons_inj job.name |>.mpr pushedLater

/-! ## Calls on the queue and on the dispatcher -/

/-- A call from outside.  The jobs of a list that is seeded have distinct names. -/
inductive Request where
  | push (job : JobConfig) (nextRun : DateTime)
  | popDue (now : DateTime)
  | drainDue (now : DateTime)
  | seed (jobs : List JobConfig) (after : DateTime) (distinct : (jobs.map JobConfig.name).Nodup)
  | tick (now : DateTime)

def perform (cb : Callbacks) (d : JobDispatcher) : Request → JobDispatcher
  | .push job nextRun => { d with queue := d.queue.push job nextRun }
  | .popDue now => { d with queue := (d.queue.popDue now).2 }
  | .drainDue now => { d with queue := (d.queue.drainDue now).2 }
  | .seed jobs after _ => (seed cb after jobs d).2
  | .tick now => (tick cb now d).2

/-- The entries that the request pushes, in order. -/
def pushed (cb : Callbacks) (d : JobDispatcher) : Request → List QueuedJob
  | .push job nextRun => [⟨nextRun, job⟩]
  | .popDue _ | .drainDue _ => []
  | .seed jobs after _ => pushesIn cb d.calls ((seed cb after jobs d).2.calls.drop d.calls.length)
  | .tick now => pushesIn cb d.calls ((tick cb now d).2.calls.drop d.calls.length)

/-- The dispatcher with its queue, and the time that the latest push of every name gave. -/
structure Pushed where
  dispatcher : JobDispatcher
  latest : String → Option DateTime

def Pushed.new : Pushed where
  dispatcher := { queue := .empty }
  latest := fun _ => none

def Pushed.step (cb : Callbacks) (s : Pushed) (request : Request) : Pushed where
  dispatcher := perform cb s.dispatcher request
  latest := (pushed cb s.dispatcher request).foldl
    (KeyedBag.give QueuedJob.name QueuedJob.nextRun) s.latest

def Pushed.after (cb : Callbacks) (requests : List Request) : Pushed :=
  requests.foldl (Pushed.step cb) .new

/-- A name has at most one entry, with the time that its latest push gave. -/
abbrev QueuedOnce (s : Pushed) : Prop :=
  KeyedBag.Once QueuedJob.name QueuedJob.nextRun s.dispatcher.queue.toMultiset s.latest

/-- A tick at any time hands no two jobs of one name to the runner. -/
def RunsOnce (cb : Callbacks) (d : JobDispatcher) : Prop :=
  ∀ now, ∃ ran, runs (tick cb now d).2.calls = runs d.calls ++ ran ∧
    (ran.map JobConfig.name).Nodup

/-- No job is pushed, directly or by seeding, while there is an entry of its name. -/
def Fresh (cb : Callbacks) (d : JobDispatcher) : Request → Prop
  | .tick _ => True
  | request => ∀ item ∈ pushed cb d request, item.name ∉ d.queue.toMultiset.map QueuedJob.name

theorem Logged.drop_calls {d d' : JobDispatcher} {calls : List Call} (logged : Logged cb d d' calls) :
    d'.calls.drop d.calls.length = calls := by
  rw [logged.calls, List.drop_left]

/-- The entries that are due, and the others. -/
theorem drained_names {q : JobQueue} (nodup : (q.toMultiset.map QueuedJob.name).Nodup)
    (now : DateTime) : ((q.drainDue now).1.map QueuedJob.name).Nodup ∧
      ∀ name ∈ (q.drainDue now).1.map QueuedJob.name,
        name ∉ (q.drainDue now).2.toMultiset.map QueuedJob.name := by
  obtain ⟨-, -, -, whole⟩ := JobQueue.drainDue_spec now q
  rw [← whole, Multiset.map_add, Multiset.nodup_add, Multiset.map_coe, Multiset.coe_nodup] at nodup
  exact ⟨nodup.1, fun name member => Multiset.disjoint_left.mp nodup.2.2 member⟩

/-- **What a request does to the queue**: some entries stay, and those that are pushed come
with distinct names, which are new exactly where the request is fresh. -/
theorem perform_spec (cb : Callbacks) {s : Pushed} (once : QueuedOnce s) (request : Request) :
    ∃ kept ≤ s.dispatcher.queue.toMultiset,
      (perform cb s.dispatcher request).queue.toMultiset =
          ↑(pushed cb s.dispatcher request) + kept ∧
        ((pushed cb s.dispatcher request).map QueuedJob.name).Nodup ∧
        (Fresh cb s.dispatcher request ↔ ∀ item ∈ pushed cb s.dispatcher request,
          item.name ∉ kept.map QueuedJob.name) := by
  cases request with
  | push job nextRun =>
      refine ⟨_, le_rfl, ?_, List.nodup_singleton _, Iff.rfl⟩
      rw [perform, JobQueue.toMultiset_push]
      rfl
  | popDue now =>
      have kept : (s.dispatcher.queue.popDue now).2.toMultiset ≤ s.dispatcher.queue.toMultiset := by
        rcases s.dispatcher.queue.popDue_cases now with ⟨idle, -⟩ | ⟨top, -, -, -, left⟩
        · rw [idle]
        · rw [← left]
          exact Multiset.le_cons_self _ _
      refine ⟨_, kept, (zero_add _).symm, List.nodup_nil, ?_⟩
      simp [Fresh, pushed]
  | drainDue now =>
      obtain ⟨-, -, -, whole⟩ := JobQueue.drainDue_spec now s.dispatcher.queue
      refine ⟨_, ?_, (zero_add _).symm, List.nodup_nil, ?_⟩
      · rw [← whole]
        exact Multiset.le_add_left _ _
      · simp [Fresh, pushed]
  | seed jobs after distinct =>
      obtain ⟨calls, logged, names⟩ := seed_logged cb after jobs s.dispatcher
      rw [← logged.drop_calls] at names logged
      exact ⟨_, le_rfl, logged.queue, names.sublist.nodup distinct, Iff.rfl⟩
  | tick now =>
      obtain ⟨-, -, -, whole⟩ := JobQueue.drainDue_spec now s.dispatcher.queue
      obtain ⟨nodup, apart⟩ := drained_names once.nodup now
      obtain ⟨calls, logged, -, names⟩ := tickLoop_logged cb now
        (s.dispatcher.queue.drainDue now).1
        { s.dispatcher with queue := (s.dispatcher.queue.drainDue now).2 }
      rw [← logged.drop_calls] at names logged
      refine ⟨(s.dispatcher.queue.drainDue now).2.toMultiset, ?_, logged.queue,
        names.sublist.nodup nodup, ?_⟩
      · rw [← whole]
        exact Multiset.le_add_left _ _
      · refine iff_of_true trivial fun item member => apart item.name ?_
        exact names.subset (List.mem_map_of_mem member)

/-- **One request** keeps the entries unique exactly where it is fresh. -/
theorem step_queuedOnce_iff {s : Pushed} (once : QueuedOnce s) (request : Request) :
    QueuedOnce (s.step cb request) ↔ Fresh cb s.dispatcher request := by
  obtain ⟨kept, le, queue, distinct, fresh⟩ := perform_spec cb once request
  rw [fresh, QueuedOnce, Pushed.step]
  dsimp only
  rw [queue]
  exact KeyedBag.once_giveAll_iff (once.of_le le) distinct

theorem QueuedOnce.runsOnce {s : Pushed} (once : QueuedOnce s) : RunsOnce cb s.dispatcher := by
  intro now
  obtain ⟨nodup, -⟩ := drained_names once.nodup now
  obtain ⟨calls, logged, ran, -⟩ := tickLoop_logged cb now
    (s.dispatcher.queue.drainDue now).1
    { s.dispatcher with queue := (s.dispatcher.queue.drainDue now).2 }
  refine ⟨runs calls, ?_, ?_⟩
  · rw [tick, logged.calls, runs_append]
  · have names := (ran.map JobConfig.name).sublist
    rw [List.map_map] at names
    exact names.nodup nodup

theorem after_append_single (cb : Callbacks) (before : List Request) (request : Request) :
    Pushed.after cb (before ++ [request]) = (Pushed.after cb before).step cb request :=
  List.foldl_concat ..

/-- **A job is queued at most once**, with the time of its latest push, and run at most once
by a tick, exactly as long as no job is pushed or seeded whose name is in the queue. -/
theorem queuedOnce_iff (cb : Callbacks) (requests : List Request) :
    (∀ before, before <+: requests →
        QueuedOnce (.after cb before) ∧ RunsOnce cb (Pushed.after cb before).dispatcher) ↔
      ∀ before request after, requests = before ++ request :: after →
        Fresh cb (Pushed.after cb before).dispatcher request := by
  induction requests using List.reverseRecOn with
  | nil =>
      refine iff_of_true (fun before isPrefix => ?_) forall_splits_nil
      rw [List.prefix_nil.mp isPrefix]
      have once : QueuedOnce .new := KeyedBag.once_zero _
      exact ⟨once, once.runsOnce⟩
  | append_singleton requests request ih =>
      rw [forall_splits_append_single, ← ih]
      simp only [List.prefix_concat_iff, forall_eq_or_imp]
      constructor
      · rintro ⟨last, front⟩
        have once := (front requests (List.prefix_refl _)).1
        rw [after_append_single] at last
        exact ⟨front, (step_queuedOnce_iff once request).mp last.1⟩
      · rintro ⟨front, fresh⟩
        have once := (front requests (List.prefix_refl _)).1
        have last := (step_queuedOnce_iff once request).mpr fresh
        rw [← after_append_single] at last
        exact ⟨⟨last, last.runsOnce⟩, front⟩

/-- **A job that is pushed again** has two entries. -/
theorem pushed_again :
    ¬ QueuedOnce (.after asWritten [.push nightly 0, .push nightly (seconds 60)]) := by
  intro once
  have nodup := once.nodup
  revert nodup
  decide +kernel

end JobDispatcher

end Cronwatch.Jobs
