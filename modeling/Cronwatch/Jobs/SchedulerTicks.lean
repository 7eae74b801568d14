/-
# Jobs.SchedulerTicks -- no occurrence twice, and one job beside another

The guard on the last run keeps the executions under one name a minute apart, whatever
the times of the ticks and whatever else raises (`ticks_spaced`).  With it no
occurrence of a schedule leads to two executions (`executions_apart`): both would have
to be in the half minute after it.

One tick serves the due jobs in order, at most one of each name, until an exception
leaves it: that is a pass of `Theory.Pass` over the jobs (`tickLoop_serve`).  So a job
whose schedule or whose alert raises takes the jobs after it with it, and
`isolated_iff` says at which ticks it does not.
-/
import Cronwatch.Jobs.Scheduler
import Cronwatch.Theory.HoldOff
import Cronwatch.Theory.Pass
import Mathlib.Data.Int.ConditionallyCompleteOrder

namespace Cronwatch.Jobs.Scheduler

set_option autoImplicit false

open Cronwatch.Theory Cronwatch.Theory.HoldOff Cronwatch.Theory.Loop Cronwatch.Theory.Pass
  Cronwatch.Runtime

/-! ## What one job does to the records -/

section Process

variable {env : Env} {now : DateTime} {job : JobConfig} {s : Scheduler}

/-- Alerts are no executions, whatever is read off an execution. -/
theorem filterMap_alerts {β : Type} {alerts : List Call} {f : Call → Option β}
    (silent : ∀ call ∈ alerts, ∃ result, call = .send result) (none_ : ∀ result, f (.send result) = none) :
    alerts.filterMap f = [] := by
  rw [List.filterMap_eq_nil_iff]
  intro call member
  obtain ⟨result, rfl⟩ := silent call member
  exact none_ result

theorem isDue_of_accepted (accepted : s.shouldRun env now job = .ok true) :
    isDue env job.schedule now = .ok true := by
  unfold shouldRun at accepted
  split at accepted
  · cases accepted
  · exact accepted

end Process

/-! ## Executions under one name -/

/-- A minute is over since the last run. -/
def minuteOver (last now : DateTime) : Prop := seconds 60 ≤ now - last

def Call.execution? : Call → Option (String × DateTime)
  | .runJob job now => some (job.name, now)
  | .send _ => none

/-- The executions as acts of the names they run under. -/
def log (s : Scheduler) : List (String × DateTime) := s.calls.filterMap Call.execution?

def Call.executionOf? (job : JobConfig) : Call → Option DateTime
  | .runJob j now => if j = job then some now else none
  | .send _ => none

/-- The times at which this job was executed, in order. -/
def executions (job : JobConfig) (s : Scheduler) : List DateTime :=
  s.calls.filterMap (Call.executionOf? job)

@[simp] theorem mem_executions (job : JobConfig) (s : Scheduler) (t : DateTime) :
    t ∈ executions job s ↔ Call.runJob job t ∈ s.calls := by
  rw [executions, List.mem_filterMap]
  constructor
  · rintro ⟨call, member, time⟩
    cases call with
    | send result => cases time
    | runJob j t' =>
        rw [Call.executionOf?] at time
        split at time
        · rename_i same
          cases time
          rwa [← same]
        · cases time
  · exact fun member => ⟨_, member, if_pos rfl⟩

section Guard

variable {env : Env} {now : DateTime} {job : JobConfig} {s : Scheduler}

theorem free_of_accepted (accepted : s.shouldRun env now job = .ok true) (last : DateTime)
    (recorded : s.lastRun.get? job.name = some last) : minuteOver last now := by
  unfold shouldRun ranRecently at accepted
  rw [recorded] at accepted
  unfold minuteOver
  by_contra recent
  rw [if_pos (by simpa using recent)] at accepted
  cases accepted

theorem minuteOver_of_le (t last : DateTime) (le : t ≤ last) (over_ : minuteOver last now) :
    minuteOver t now := by
  unfold minuteOver at over_ ⊢
  linarith

/-- **One job** keeps the executions under every name a minute apart. -/
theorem process_spaced {name : String} (spaced : Spaced minuteOver name now s.log s.lastRun)
    (job : JobConfig) : Spaced minuteOver name now (s.process env now job).2.log
      (s.process env now job).2.lastRun := by
  by_cases accepted : s.shouldRun env now job = .ok true
  · obtain ⟨alerts, processed, silent, -⟩ := process_of_accepted accepted
    have logged : (s.process env now job).2.log = s.log ++ [(job.name, now)] := by
      have none_ : alerts.filterMap Call.execution? = [] := filterMap_alerts silent fun _ => rfl
      rw [processed]
      simp [log, Call.execution?, none_]
    rw [logged, processed]
    by_cases same : job.name = name
    · subst same
      exact spaced.act minuteOver_of_le (free_of_accepted accepted)
    · exact spaced.act_of_ne same now
  · rw [process_of_declined accepted]
    exact spaced

theorem tickLoop_spaced {name : String} (js : List JobConfig)
    (spaced : Spaced minuteOver name now s.log s.lastRun) :
    Spaced minuteOver name now (tickLoop env now js s).2.log (tickLoop env now js s).2.lastRun := by
  rw [tickLoop_eq_loop]
  exact loop_invariant (I := fun s' : Scheduler => Spaced minuteOver name now s'.log s'.lastRun)
    (fun job _ _ kept => process_spaced kept job) spaced

end Guard

theorem ticks_append_single (env : Env) (nows : List DateTime) (now : DateTime) (s : Scheduler) :
    s.ticks env (nows ++ [now]) = ((s.ticks env nows).tick env now).2 := by
  simp [ticks]

/-- **Any run of ticks** in order of time. -/
theorem ticks_spaced (env : Env) (jobs : List JobConfig) (name : String) {nows : List DateTime}
    (ordered : nows.Pairwise (· ≤ ·)) {now : DateTime} (past : ∀ t ∈ nows, t ≤ now) :
    Spaced minuteOver name now ((new jobs).ticks env nows).log
      ((new jobs).ticks env nows).lastRun := by
  induction nows using List.reverseRecOn generalizing now with
  | nil => exact Spaced.start minuteOver name now
  | append_singleton before t ih =>
      obtain ⟨orderedBefore, -, earlier⟩ := List.pairwise_append.mp ordered
      have spaced := ih orderedBefore fun t' member =>
        earlier t' member t (List.mem_singleton_self t)
      rw [ticks_append_single]
      exact (tickLoop_spaced _ spaced).wait (past t (by simp))

/-! ## At most one execution for each occurrence -/

theorem filterMap_sublist {α β : Type} {f g : α → Option β}
    (wider : ∀ x y, f x = some y → g x = some y) (l : List α) :
    (l.filterMap f).Sublist (l.filterMap g) := by
  induction l with
  | nil => exact List.Sublist.refl _
  | cons x rest ih =>
      cases kept : f x with
      | some y =>
          rw [List.filterMap_cons_some kept, List.filterMap_cons_some (wider x y kept)]
          exact ih.cons_cons y
      | none =>
          rw [List.filterMap_cons_none kept, List.filterMap_cons]
          split
          · exact ih
          · exact ih.cons _

/-- The executions of a job are among those under its name. -/
theorem executions_sublist (job : JobConfig) (s : Scheduler) :
    (executions job s).Sublist (times job.name s.log) := by
  unfold executions times log
  rw [List.filterMap_filterMap]
  apply filterMap_sublist
  intro call t ran
  cases call with
  | send result => cases ran
  | runJob j t' =>
      rw [Call.executionOf?] at ran
      split at ran
      · rename_i same
        simpa [Call.execution?, same] using ran
      · cases ran

/-- A job is executed at times at which it is due. -/
theorem isDue_of_execution (env : Env) (jobs nows : _) {job : JobConfig} {t : DateTime}
    (executed : t ∈ executions job ((new jobs).ticks env nows)) :
    isDue env job.schedule t = .ok true := by
  rw [mem_executions, mem_ticks_calls] at executed
  rcases executed with old | ⟨before, after, -, front, back, -, -, accepted⟩
  · cases old
  · exact isDue_of_accepted accepted

/-- The half minute after its occurrence in which a job is executed. -/
theorem within_of_due {env : Env} {schedule : String} {occurs : DateTime → Prop}
    (finds : Finds env schedule occurs) {t T : DateTime} (due : isDue env schedule t = .ok true)
    (charged : env.getPrev schedule t = .ok T) : T < t ∧ t ≤ T + seconds 30 := by
  obtain ⟨prev, found, ⟨-, before⟩, -⟩ := finds t
  rw [charged] at found
  cases found
  rw [isDue, charged] at due
  have near : |t - T| ≤ seconds 30 := by simpa using due
  refine ⟨before, ?_⟩
  have later := (abs_le.mp near).2
  linarith

/-- **No double firing.**  With ticks in order of time, executions under one name are a
minute apart, and at most one execution of a job is charged to an occurrence of its
schedule, however close the occurrences are. -/
theorem executions_apart (env : Env) (jobs : List JobConfig) {nows : List DateTime}
    (ordered : nows.Pairwise (· ≤ ·)) (job : JobConfig) :
    (times job.name ((new jobs).ticks env nows).log).Pairwise
        (fun t t' => seconds 60 ≤ t' - t) ∧
      (executions job ((new jobs).ticks env nows)).Pairwise (fun t t' => seconds 60 ≤ t' - t) ∧
      ∀ occurs, Finds env job.schedule occurs → ∀ T,
        ((executions job ((new jobs).ticks env nows)).filter
          fun t => env.getPrev job.schedule t = .ok T).length ≤ 1 := by
  obtain ⟨last, past⟩ := exists_latest ordered
  have apart := (ticks_spaced env jobs job.name ordered past).apart
  have ownApart := apart.sublist (executions_sublist job _)
  refine ⟨apart, ownApart, fun occurs finds T => ?_⟩
  apply length_le_one_of_pairwise (ownApart.sublist List.filter_sublist)
  intro t executed t' executed' over_
  obtain ⟨ran, charged⟩ := List.mem_filter.mp executed
  obtain ⟨ran', charged'⟩ := List.mem_filter.mp executed'
  obtain ⟨after, -⟩ := within_of_due finds (isDue_of_execution env jobs nows ran)
    (of_decide_eq_true charged)
  obtain ⟨-, within⟩ := within_of_due finds (isDue_of_execution env jobs nows ran')
    (of_decide_eq_true charged')
  have shorter : seconds 30 < seconds 60 := by decide
  unfold minuteOver at over_
  linarith

/-- Ticks in bursts, some of them at the same time. -/
def bursts : List DateTime :=
  [seconds 61, seconds 61, seconds 75, seconds 90, seconds 121, seconds 121]

theorem bursts_fire_once :
    seconds 61 ∈ executions heartbeat ((new [heartbeat]).ticks everyMinute bursts) ∧
      ((executions heartbeat ((new [heartbeat]).ticks everyMinute bursts)).filter fun t =>
        everyMinute.getPrev heartbeat.schedule t = .ok (seconds 60)).length ≤ 1 := by
  obtain ⟨-, -, once⟩ := executions_apart everyMinute [heartbeat]
    (show bursts.Pairwise (· ≤ ·) by decide) heartbeat
  exact ⟨by decide +kernel, once onTheMinute everyMinute_finds (seconds 60)⟩

/-! ## One tick as a pass over the jobs -/

def Call.job? : Call → Option JobConfig
  | .runJob job _ => some job
  | .send _ => none

/-- The jobs that the tick executes, in order. -/
def ranBy (env : Env) (now : DateTime) (s : Scheduler) : List JobConfig :=
  ((s.tick env now).2.calls.drop s.calls.length).filterMap Call.job?

/-- The job is due at the tick, as the records stand before it. -/
def due (env : Env) (now : DateTime) (s : Scheduler) (job : JobConfig) : Bool :=
  match s.shouldRun env now job with
  | .ok due => due
  | .error _ => false

/-- The schedule of the job raises, or it is due and its alert raises. -/
def halts (raising : JobConfig → Bool) (env : Env) (now : DateTime) (s : Scheduler)
    (job : JobConfig) : Bool :=
  match s.shouldRun env now job with
  | .ok due => due && raising job
  | .error _ => true

/-- The jobs that fail and whose alert raises. -/
def AlertRaises (raising : JobConfig → Bool) (env : Env) (now : DateTime) : Prop :=
  ∀ calls job, raising job = true ↔ (env.runJob calls job).success = false ∧
    ∃ e, env.send (calls ++ [.runJob job now]) (env.runJob calls job) = .error e

/-- The records as they stand at `now`, after the names in `served` had their turn. -/
def RanSince (now : DateTime) (served : List String) (before after : Scheduler) : Prop :=
  ∀ name, after.lastRun.get? name =
    if name ∈ served then some now else before.lastRun.get? name

theorem due_eq_true_iff (env : Env) (now : DateTime) (s : Scheduler) (job : JobConfig) :
    due env now s job = true ↔ s.shouldRun env now job = .ok true := by
  unfold due
  split <;> rename_i verdict <;> simp [verdict]

section Turns

variable {env : Env} {now : DateTime} {s s' : Scheduler} {served : List String}

theorem shouldRun_of_ranSince (since : RanSince now served s s') (job : JobConfig) :
    s'.shouldRun env now job =
      if job.name ∈ served then .ok false else s.shouldRun env now job := by
  have record := since job.name
  by_cases again : job.name ∈ served
  · rw [if_pos again] at record ⊢
    have recent : s'.ranRecently now job = true := by
      rw [ranRecently, record]
      simp [seconds]
    rw [shouldRun, if_pos recent]
  · rw [if_neg again] at record ⊢
    rw [shouldRun, shouldRun, ranRecently, record, ← ranRecently]

theorem RanSince.serve (since : RanSince now served s s') (name : String) (calls : List Call) :
    RanSince now (name :: served) s
      { s' with lastRun := s'.lastRun.set name now, calls := calls } := by
  intro name'
  show (s'.lastRun.set name now).get? name' = _
  rw [Dict.get?_set, since name']
  by_cases same : name' = name
  · simp [same]
  · simp [same]

theorem RanSince.congr (since : RanSince now served s s') {served' : List String}
    (same : ∀ name, name ∈ served' ↔ name ∈ served) : RanSince now served' s s' := by
  intro name
  rw [since name]
  simp only [same]

/-- After one pass, the name of a due job has had its turn, in this pass or before. -/
theorem process_ranSince (env : Env) (job : JobConfig) (since : RanSince now served s s') :
    RanSince now (([job].filter (due env now s)).map JobConfig.name ++ served) s
      (s'.process env now job).2 := by
  have turn : s'.shouldRun env now job =
      if job.name ∈ served then .ok false else s.shouldRun env now job :=
    shouldRun_of_ranSince since job
  by_cases accepted : s'.shouldRun env now job = .ok true
  · obtain ⟨alerts, executed, -, -⟩ := process_of_accepted accepted
    have isDue : due env now s job = true := by
      rw [turn] at accepted
      split at accepted
      · cases accepted
      · exact (due_eq_true_iff env now s job).mpr accepted
    rw [executed, List.filter_cons_of_pos isDue]
    exact since.serve job.name _
  · rw [process_of_declined accepted]
    refine since.congr fun name => ?_
    cases isDue : due env now s job with
    | false => simp [isDue]
    | true =>
        -- due, but its name had its turn before
        have again : job.name ∈ served := by
          by_contra new
          rw [turn, if_neg new, ← due_eq_true_iff] at accepted
          exact accepted isDue
        rw [List.filter_cons_of_pos isDue]
        simp only [List.filter_nil, List.map_cons, List.map_nil, List.singleton_append,
          List.mem_cons, or_iff_right_iff_imp]
        rintro rfl
        exact again

/-- After a loop that returns, the names of the due jobs have had their turn. -/
theorem tickLoop_ranSince (env : Env) (js : List JobConfig) (since : RanSince now served s s')
    (returned : ∃ results, (tickLoop env now js s').1 = .ok results) :
    RanSince now ((js.filter (due env now s)).map JobConfig.name ++ served) s
      (tickLoop env now js s').2 := by
  induction js generalizing s' served with
  | nil => exact since
  | cons job rest ih =>
      have next := process_ranSince env job since
      rcases processed : s'.process env now job with ⟨e | result, s''⟩
      · obtain ⟨results, returned⟩ := returned
        rw [tickLoop_cons_of_error env now processed] at returned
        cases returned
      · rw [tickLoop_cons_of_ok env now processed] at returned ⊢
        have returnedRest : ∃ results, (tickLoop env now rest s'').1 = .ok results := by
          obtain ⟨results, returned⟩ := returned
          cases rest' : (tickLoop env now rest s'').1 with
          | error e =>
              rw [rest'] at returned
              cases returned
          | ok results => exact ⟨results, rfl⟩
        rw [processed] at next
        refine (ih next returnedRest).congr fun name => ?_
        rw [← List.singleton_append, List.filter_append, List.map_append]
        simp only [List.mem_append]
        tauto

/-- The job is due on the records before the tick, none of the jobs in front of it is due
under its name, and none of them raises. -/
def DueInTurn (env : Env) (now : DateTime) (job : JobConfig) (s : Scheduler) : Prop :=
  ∃ front back, s.jobs = front ++ job :: back ∧
    (∃ results, (tickLoop env now front s).1 = .ok results) ∧
    (∀ j ∈ front, due env now s j = true → j.name ≠ job.name) ∧ due env now s job = true

/-- **Which jobs a tick executes**, from the records as they stand before it. -/
theorem fires_iff_dueInTurn (env : Env) (now : DateTime) (job : JobConfig) (s : Scheduler) :
    Fires env now job s.jobs s ↔ DueInTurn env now job s := by
  refine exists_congr fun front => exists_congr fun back => and_congr_right fun _ =>
    and_congr_right fun returned => ?_
  have since := tickLoop_ranSince env front (show RanSince now [] s s from fun name => by simp)
    returned
  rw [shouldRun_of_ranSince since job, due_eq_true_iff]
  have served : job.name ∈ (front.filter (due env now s)).map JobConfig.name ++ [] ↔
      ∃ j ∈ front, due env now s j = true ∧ j.name = job.name := by
    simp [and_assoc]
  by_cases again : job.name ∈ (front.filter (due env now s)).map JobConfig.name ++ []
  · obtain ⟨j, inFront, isDue, same⟩ := served.mp again
    rw [if_pos again]
    constructor
    · intro impossible
      cases impossible
    · rintro ⟨clear, -⟩
      exact absurd same (clear j inFront isDue)
  · rw [if_neg again, and_iff_right]
    exact fun j inFront isDue same => again (served.mpr ⟨j, inFront, isDue, same⟩)

/-- The turn of a due job executes it, and its alert decides whether the tick goes on. -/
theorem process_of_due {raising : JobConfig → Bool} (alerts : AlertRaises raising env now)
    {job : JobConfig} (accepted : s.shouldRun env now job = .ok true) :
    ∃ new, new.filterMap Call.job? = [job] ∧
      ((raising job = true ∧ ∃ e, s.process env now job = (.error e, { s with
          lastRun := s.lastRun.set job.name now, calls := s.calls ++ new })) ∨
        (raising job = false ∧ ∃ result, s.process env now job = (.ok result, { s with
          lastRun := s.lastRun.set job.name now, calls := s.calls ++ new }))) := by
  obtain ⟨made, processed, silent, raises⟩ := process_of_accepted accepted
  rw [← alerts s.calls job] at raises
  refine ⟨.runJob job now :: made, ?_, ?_⟩
  · have none_ : made.filterMap Call.job? = [] := filterMap_alerts silent fun _ => rfl
    simp [Call.job?, none_]
  · rcases outcome : s.process env now job with ⟨e | result, s''⟩
    · rw [outcome] at processed raises
      subst processed
      exact .inl ⟨raises.mp ⟨e, rfl⟩, e, rfl⟩
    · rw [outcome] at processed raises
      subst processed
      refine .inr ⟨Bool.eq_false_iff.mpr fun raised => ?_, result, rfl⟩
      obtain ⟨e, impossible⟩ := raises.mpr raised
      cases impossible

/-- **One tick is a pass** that serves each due name once, until something halts it. -/
theorem tickLoop_serve {raising : JobConfig → Bool} (alerts : AlertRaises raising env now)
    (s : Scheduler) (js : List JobConfig) (since : RanSince now served s s') :
    ∃ new, (tickLoop env now js s').2.calls = s'.calls ++ new ∧
      new.filterMap Call.job? =
        serve JobConfig.name (due env now s) (halts raising env now s) served js := by
  induction js generalizing s' served with
  | nil => exact ⟨[], (List.append_nil _).symm, rfl⟩
  | cons job rest ih =>
      have turn : s'.shouldRun env now job =
          if job.name ∈ served then .ok false else s.shouldRun env now job :=
        shouldRun_of_ranSince since job
      rw [serve]
      by_cases again : job.name ∈ served
      · rw [if_pos again] at turn ⊢
        have passed : s'.process env now job = (.ok none, s') := by
          rw [process, turn]
        rw [tickLoop_cons_of_ok env now passed]
        exact ih since
      · rw [if_neg again] at turn ⊢
        cases verdict : s.shouldRun env now job with
        | error e =>
            have failed : s'.process env now job = (.error e, s') := by
              rw [process, turn, verdict]
            rw [tickLoop_cons_of_error env now failed]
            exact ⟨[], (List.append_nil _).symm, by simp [due, halts, verdict]⟩
        | ok isDue =>
            cases isDue with
            | false =>
                have declined : s'.process env now job = (.ok none, s') := by
                  rw [process, turn, verdict]
                rw [tickLoop_cons_of_ok env now declined]
                simpa [due, halts, verdict] using ih since
            | true =>
                rw [verdict] at turn
                obtain ⟨made, shown, ⟨raised, e, failed⟩ | ⟨quiet, result, executed⟩⟩ :=
                  process_of_due alerts turn
                · -- the alert of this job is the last call of the tick
                  rw [tickLoop_cons_of_error env now failed]
                  exact ⟨made, rfl, by simp [shown, due, halts, verdict, raised]⟩
                · obtain ⟨new, calls, ran⟩ := ih (since.serve job.name (s'.calls ++ made))
                  rw [tickLoop_cons_of_ok env now executed]
                  refine ⟨made ++ new, by rw [calls, List.append_assoc], ?_⟩
                  rw [List.filterMap_append, shown, ran]
                  simp [due, halts, verdict, quiet]

theorem ranBy_eq {raising : JobConfig → Bool} (alerts : AlertRaises raising env now)
    (s : Scheduler) : ranBy env now s =
      serve JobConfig.name (due env now s) (halts raising env now s) [] s.jobs := by
  have fresh : RanSince now [] s s := fun name => by simp
  obtain ⟨new, calls, ran⟩ := tickLoop_serve alerts s s.jobs fresh
  rw [ranBy, tick, calls, List.drop_left, ran]

end Turns

/-- The tick executes the due jobs other than the raising ones, each once and in order. -/
def Isolated (raising : JobConfig → Bool) (env : Env) (now : DateTime) (s : Scheduler) : Prop :=
  (ranBy env now s).filter (fun job => !raising job) =
    (s.jobs.filter (due env now s)).filter fun job => !raising job

/-- **When a tick isolates its jobs**: exactly when no due job, other than the raising
ones, stands behind a due job of its name or behind one that halts the tick. -/
theorem isolated_iff {raising : JobConfig → Bool} {env : Env} {now : DateTime}
    (alerts : AlertRaises raising env now) (s : Scheduler) :
    Isolated raising env now s ↔ Undisturbed JobConfig.name (due env now s)
      (halts raising env now s) (fun job => !raising job) [] s.jobs := by
  rw [Isolated, ranBy_eq alerts]
  apply filter_serve_eq_iff
  intro job isDue calm
  unfold due at isDue
  unfold halts
  split at isDue
  · simpa using fun _ => calm
  · cases isDue

/-- A job that fails. -/
def flaky : JobConfig where
  name := "flaky"
  command := "exit 1"
  schedule := "* * * * *"

/-- A job with an expression that the parser rejects. -/
def misspelt : JobConfig where
  name := "misspelt"
  command := "true"
  schedule := "61 * * * *"

/-- Expressions are parsed, `flaky` fails, and the alerter reads an attribute that the
result does not have. -/
def faulty : Env where
  getPrev := fun schedule now =>
    if schedule = "61 * * * *" then
      .error (.valueError "[61 * * * *] is not acceptable, out of range")
    else everyMinute.getPrev schedule now
  runJob := fun calls job => { everyMinute.runJob calls job with
    exitCode := if job.name = "flaky" then 1 else 0 }
  send := fun _ _ => .error (.attributeError "'ExecutionResult' object has no attribute 'duration'")

def isFlaky (job : JobConfig) : Bool := job.name = "flaky"

theorem faulty_alerts (now : DateTime) : AlertRaises isFlaky faulty now := by
  intro calls job
  by_cases failing : job.name = "flaky" <;>
    simp [isFlaky, faulty, everyMinute, ExecutionResult.success, failing]

/-- A raising job does no harm to the one in front of it. -/
theorem isolated_in_front :
    Isolated isFlaky faulty (seconds 65) (new [heartbeat, flaky, misspelt]) := by
  apply (isolated_iff (faulty_alerts (seconds 65)) (new [heartbeat, flaky, misspelt])).mpr
  refine (undisturbed_cons (fun _ _ => shadowed_cons _ _) _).mpr
    ⟨by decide +kernel, by decide +kernel, ?_⟩
  refine (undisturbed_cons (fun _ _ => shadowed_cons _ _) _).mpr
    ⟨by decide +kernel, by decide +kernel, ?_⟩
  refine (undisturbed_cons (fun _ _ => shadowed_cons _ _) _).mpr
    ⟨by decide +kernel, by decide +kernel, ?_⟩
  exact undisturbed_nil

/-- A job behind one whose schedule raises, or whose alert does, is not executed. -/
theorem tick_not_isolated :
    ¬ Isolated isFlaky faulty (seconds 65) (new [misspelt, heartbeat]) ∧
      ¬ Isolated isFlaky faulty (seconds 65) (new [flaky, heartbeat]) := by
  unfold Isolated
  decide +kernel

end Cronwatch.Jobs.Scheduler
