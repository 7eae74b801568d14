/-
# Alerts.DeadlineDays -- missed deadlines over many days

The checker and its alerter in one long run: dispatches are marked, ticks come at any times, and
`reset_daily` clears the set of what has been alerted.

The set holds what was attempted since the last reset (`follows_run`), so a job has one attempt for
each day between two resets.  `deadline_days` says which jobs a tick attempts: those whose deadline
of the day is over, whose last dispatch does not precede it, and that were not attempted that day
since the last reset; each once, up to the first alert that fails.
-/
import Cronwatch.Alerts.DeadlineAlerter
import Cronwatch.Theory.Latch

namespace Cronwatch.Alerts.DeadlineAlerter

set_option autoImplicit false

open Cronwatch.Theory Cronwatch.Theory.HoldOff Cronwatch.Theory.Loop Cronwatch.Runtime Cronwatch.Jobs

def resetDaily (a : DeadlineAlerter) : DeadlineAlerter := { a with alerted := [] }

inductive Event where
  | dispatched (jobName : String) (when_ : DateTime)
  | tick (now : DateTime)
  | resetDaily

/-- What an attempt is remembered by. -/
def key (violation : DeadlineViolation) : String × String :=
  (violation.jobName, isoDate violation.checkedAt)

/-- The attempts of the alerter and the resets, in order. -/
abbrev Log := List (Latch.Entry DeadlineViolation (String × String))

structure System where
  checker : DeadlineChecker
  alerter : DeadlineAlerter := {}
  log : Log := []

/-- The attempts, each with its outcome. -/
def tried (a : DeadlineAlerter) : List (DeadlineViolation × Bool) :=
  a.attempts.map fun attempt => (attempt.violation, attempt.sent)

section Run

variable (env : Env)

def System.step (s : System) : Event → System
  | .dispatched jobName when_ => { s with checker := s.checker.markDispatched jobName when_ }
  | .tick now =>
      let alerter := (s.alerter.tick env now s.checker).2
      let made := (tried alerter).drop (tried s.alerter).length
      { s with alerter, log := s.log ++ made.map fun e => .tried e.1 e.2 }
  | .resetDaily => { s with alerter := s.alerter.resetDaily, log := s.log ++ [.reset fun _ => true] }

def run (jobs : List DeadlineJob) (events : List Event) : System :=
  events.foldl (System.step env) { checker := { jobs } }

theorem run_append_single (jobs : List DeadlineJob) (before : List Event) (event : Event) :
    run env jobs (before ++ [event]) = (run env jobs before).step env event := by
  rw [run, List.foldl_append]
  rfl

def Event.mark? : Event → Option (String × DateTime)
  | .dispatched jobName when_ => some (jobName, when_)
  | .tick _ | .resetDaily => none

/-- The dispatches so far. -/
def marks (events : List Event) : List (String × DateTime) := events.filterMap Event.mark?

theorem checker_run (jobs : List DeadlineJob) (events : List Event) :
    (run env jobs events).checker = DeadlineChecker.markAll (marks events) { jobs } := by
  induction events using List.reverseRecOn with
  | nil => rfl
  | append_singleton before event ih =>
      have joined : DeadlineChecker.markAll (marks (before ++ [event])) { jobs } =
          DeadlineChecker.markAll (marks [event]) (run env jobs before).checker := by
        rw [ih, marks, List.filterMap_append, DeadlineChecker.markAll, List.foldl_append]
        rfl
      rw [run_append_single, joined]
      cases event <;> rfl

/-! ## One tick -/

theorem tried_attempt (violation : DeadlineViolation) (sent : Bool) (a : DeadlineAlerter) :
    tried (a.attempt violation sent) = tried a ++ [(violation, sent)] := by
  rw [tried, attempt, List.map_append]
  rfl

/-- One violation found in a tick is left out, or attempted with its key marked. -/
theorem latched (now : DateTime) :
    Latch.Latched key true (process env now) (fun a k => k ∈ a.alerted) tried
      fun violation => violation.checkedAt = now where
  held := by
    rintro violation a rfl marked
    rw [process]
    exact if_pos (of_decide_eq_true marked)
  free := by
    rintro violation a rfl unmarked
    have new : (violation.jobName, isoDate violation.checkedAt) ∉ a.alerted := of_decide_eq_false unmarked
    rw [process, if_neg new, sendAlert]
    have marks : ∀ sent k, decide (k ∈ (attempt violation sent
        { a with alerted := a.alerted ++ [(violation.jobName, isoDate violation.checkedAt)] }).alerted) =
          (decide (k = key violation) || decide (k ∈ a.alerted)) := by
      intro sent k
      rw [attempt, Bool.eq_iff_iff, Bool.or_eq_true, decide_eq_true_iff, decide_eq_true_iff,
        decide_eq_true_iff, List.mem_append, List.mem_singleton, or_comm, key]
    cases env.send a.attempts (message violation) with
    | error e => exact .inr ⟨e, _, rfl, tried_attempt _ _ _, marks false⟩
    | ok done => exact .inl ⟨_, rfl, tried_attempt _ _ _, marks true⟩

/-- A tick whose check returns is a loop over what it finds. -/
theorem left_tick {now : DateTime} {checker : DeadlineChecker} {violations : List DeadlineViolation}
    (checked : checker.check env.repr now = .ok violations)
    (found : ∀ violation ∈ violations, violation.checkedAt = now) (a : DeadlineAlerter) :
    Latch.Left key true (fun k => k ∈ a.alerted) (tried a)
      (Latch.fresh key (fun k => k ∈ a.alerted) violations)
      (a.tick env now checker).1 (fun k => k ∈ (a.tick env now checker).2.alerted)
      (tried (a.tick env now checker).2) := by
  rw [tick, checked]
  exact (latched env now).loop_spec found a

end Run

/-! ## The run -/

section Law

variable {env : Env} {jobs : List DeadlineJob}

theorem check_run (readable : DeadlineChecker.Readable env.repr jobs) (events : List Event) (now : DateTime) :
    ∃ violations, (run env jobs events).checker.check env.repr now = .ok violations ∧
      ∀ violation, violation ∈ violations ↔
        DeadlineChecker.Reports env.repr now (DeadlineChecker.markAll (marks events) { jobs }) jobs
          violation := by
  rw [checker_run, DeadlineChecker.check, DeadlineChecker.jobs_markAll]
  exact DeadlineChecker.checkLoop_returns now _ readable

/-- The set is what was attempted since the last reset, and nothing that was in it was
attempted. -/
theorem follows_run (readable : DeadlineChecker.Readable env.repr jobs) (events : List Event) :
    Latch.Follows key true (run env jobs events).log fun k => k ∈ (run env jobs events).alerter.alerted := by
  induction events using List.reverseRecOn with
  | nil => exact .start
  | append_singleton before event ih =>
      obtain ⟨violations, checked, reports⟩ := check_run readable before 0
      rw [run_append_single]
      cases event with
      | dispatched jobName when_ => exact ih
      | tick now =>
          obtain ⟨violations, checked, reports⟩ := check_run readable before now
          have found : ∀ violation ∈ violations, violation.checkedAt = now := by
            intro violation member
            obtain ⟨job, -, deadline, -, -, rfl⟩ := (reports violation).mp member
            rfl
          obtain ⟨more, grew, follows⟩ :=
            ih.loop (left_tick env checked found (run env jobs before).alerter)
          rw [System.step]
          dsimp only
          rw [grew, List.drop_left]
          exact follows
      | resetDaily => exact ih.reset fun _ => true

/-- The job has been attempted on the date, and that was not reset since. -/
def AttemptedOn (date jobName : String) (log : Log) : Prop :=
  ∃ before violation sent after, log = before ++ .tried violation sent :: after ∧
    violation.jobName = jobName ∧ isoDate violation.checkedAt = date ∧
      ∀ which, .reset which ∈ after → which (jobName, date) = false

theorem attemptedOn_iff (date jobName : String) (log : Log) :
    Latch.markedIn key true (jobName, date) log = true ↔ AttemptedOn date jobName log := by
  rw [Latch.markedIn_iff, AttemptedOn]
  simp only [Bool.true_or, true_and, key, Prod.mk.injEq, and_assoc]

/-- The deadline of the job is over, and its last dispatch was not before it. -/
def Late (env : Env) (jobs : List DeadlineJob) (dispatches : List (String × DateTime)) (now : DateTime)
    (jobName : String) : Prop :=
  ∃ job ∈ jobs, job.name = jobName ∧ ∃ deadline, deadlineFor env.repr job = .ok (some deadline) ∧
    deadline.on now ≤ now ∧
      ∀ last, (times jobName dispatches).getLast? = some last → deadline.on now < last

theorem late_iff_reports (dispatches : List (String × DateTime)) (now : DateTime) (jobName : String) :
    (∃ violation, DeadlineChecker.Reports env.repr now (DeadlineChecker.markAll dispatches { jobs }) jobs
      violation ∧ violation.jobName = jobName) ↔ Late env jobs dispatches now jobName := by
  constructor
  · rintro ⟨_, ⟨job, member, deadline, read, overdue, rfl⟩, rfl⟩
    refine ⟨job, member, rfl, deadline, read, ?_⟩
    rw [DeadlineChecker.overdue, DeadlineChecker.dispatched_markAll] at overdue
    split at overdue
    · cases overdue
    · rename_i over_
      refine ⟨not_lt.mp over_, fun last latest => ?_⟩
      rw [latest] at overdue
      exact of_decide_eq_true overdue
  · rintro ⟨job, member, rfl, deadline, read, over_, after⟩
    refine ⟨⟨job.name, deadline, now⟩, ⟨job, member, deadline, read, ?_, rfl⟩, rfl⟩
    rw [DeadlineChecker.overdue, DeadlineChecker.dispatched_markAll, if_neg (not_lt.mpr over_)]
    cases latest : (times job.name dispatches).getLast? with
    | none => rfl
    | some last => exact decide_eq_true (after last latest)

theorem map_key {now : DateTime} {violations : List DeadlineViolation}
    (found : ∀ violation ∈ violations, violation.checkedAt = now) :
    violations.map key =
      (violations.map DeadlineViolation.jobName).map fun jobName => (jobName, isoDate now) := by
  rw [List.map_map]
  apply List.map_congr_left
  intro violation member
  rw [key, found violation member, Function.comp_apply]

/-- The jobs of what is new among the violations of one check. -/
theorem mem_fresh_iff {now : DateTime} {violations : List DeadlineViolation}
    (found : ∀ violation ∈ violations, violation.checkedAt = now) (marked : String × String → Bool)
    (jobName : String) :
    jobName ∈ (Latch.fresh key marked violations).map DeadlineViolation.jobName ↔
      (∃ violation ∈ violations, violation.jobName = jobName) ∧ marked (jobName, isoDate now) = false := by
  have same : ∀ violation ∈ violations, key violation = (violation.jobName, isoDate now) := by
    intro violation member
    rw [key, found violation member]
  constructor
  · intro member
    obtain ⟨violation, inside, rfl⟩ := List.mem_map.mp member
    obtain ⟨among, free⟩ := Latch.mem_of_fresh inside
    rw [same violation among] at free
    exact ⟨⟨violation, among, rfl⟩, free⟩
  · rintro ⟨⟨violation, among, rfl⟩, free⟩
    rw [← same violation among] at free
    have member := Latch.key_mem_fresh among free
    rw [map_key fun violation member => found violation (Latch.mem_of_fresh member).1,
      same violation among] at member
    obtain ⟨jobName, inside, eq⟩ := List.mem_map.mp member
    cases eq
    exact inside

/-- **One alert per missed deadline and day, over any number of days.**  After any dispatches, ticks
and resets, two attempts for one job and date have a reset between them; and the next tick attempts
the jobs that are late and have no attempt of that date since the last reset, each once, up to the
first alert that fails. -/
theorem deadline_days (readable : DeadlineChecker.Readable env.repr jobs) (events : List Event) :
    let s := run env jobs events
    (∀ before violation sent between violation' sent' after,
      s.log = before ++ .tried violation sent :: (between ++ .tried violation' sent' :: after) →
      violation'.jobName = violation.jobName → isoDate violation'.checkedAt = isoDate violation.checkedAt →
        ∃ which, .reset which ∈ between) ∧
    ∀ now, ∃ new : List DeadlineViolation, (new.map DeadlineViolation.jobName).Nodup ∧
      (∀ jobName, jobName ∈ new.map DeadlineViolation.jobName ↔
        Late env jobs (marks events) now jobName ∧ ¬ AttemptedOn (isoDate now) jobName s.log) ∧
      Latch.Made (tried s.alerter) new (s.alerter.tick env now s.checker).1
        (tried (s.alerter.tick env now s.checker).2) := by
  intro s
  have follows := follows_run readable events
  refine ⟨fun before violation sent between violation' sent' after split sameJob sameDay => ?_,
    fun now => ?_⟩
  · obtain ⟨which, member, -⟩ := follows.once split (Prod.ext sameJob sameDay) (Bool.true_or sent)
    exact ⟨which, member⟩
  · obtain ⟨violations, checked, reports⟩ := check_run readable events now
    have found : ∀ violation ∈ violations, violation.checkedAt = now := by
      intro violation member
      obtain ⟨job, -, deadline, -, -, rfl⟩ := (reports violation).mp member
      rfl
    refine ⟨Latch.fresh key (fun k => k ∈ s.alerter.alerted) violations, ?_, fun jobName => ?_, ?_⟩
    · have distinct : ((Latch.fresh key (fun k => k ∈ s.alerter.alerted) violations).map key).Nodup :=
        Latch.nodup_fresh _ violations
      rw [map_key fun violation member => found violation (Latch.mem_of_fresh member).1] at distinct
      exact distinct.of_map _
    · rw [mem_fresh_iff found, ← late_iff_reports, ← attemptedOn_iff, ← follows.marks]
      simp only [reports, Bool.not_eq_true]
      rfl
    · exact (left_tick env checked found s.alerter).made

end Law

/-- A tick on the day after one that has alerted. -/
theorem deadline_days_report :
    let env : Env := { repr := id, send := fun _ _ => .ok () }
    let events := [.tick (seconds 39600), .resetDaily]
    let s := run env [DeadlineChecker.report] events
    DeadlineChecker.Readable env.repr [DeadlineChecker.report] ∧
      ∃ new : List DeadlineViolation, (new.map DeadlineViolation.jobName).Nodup ∧
        (∀ jobName, jobName ∈ new.map DeadlineViolation.jobName ↔
          Late env [DeadlineChecker.report] (marks events) (seconds 126000) jobName ∧
            ¬ AttemptedOn (isoDate (seconds 126000)) jobName s.log) ∧
        Latch.Made (tried s.alerter) new (s.alerter.tick env (seconds 126000) s.checker).1
          (tried (s.alerter.tick env (seconds 126000) s.checker).2) := by
  intro env events s
  have readable : DeadlineChecker.Readable env.repr [DeadlineChecker.report] := by
    intro job member
    rw [List.mem_singleton.mp member]
    exact ⟨some ⟨9, 0⟩, by decide +kernel⟩
  exact ⟨readable, (deadline_days readable events).2 (seconds 126000)⟩

end Cronwatch.Alerts.DeadlineAlerter
