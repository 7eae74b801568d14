/-
# Alerts.Watchdog -- alerts for jobs that missed their window

`checkMissed` compares the latest recorded run of every job that has an interval with
the current time.  `check` alerts for each missed job unless an alert for it was sent
less than an hour before.  The history is what `store.get` answers, the start times
recorded so far for a name; the alerter is code handed in.

The hold of one hour is fixed and does not end when the job runs again.  So a job that
recovers and misses its window a second time within the hour is reported but not
alerted for (`second_miss_held`), and this is the only exception
(`missed_alerted_or_held`).
-/
import Cronwatch.Jobs.Config
import Cronwatch.Runtime.Clock
import Cronwatch.Theory.HoldOff
import Mathlib.Data.Int.ConditionallyCompleteOrder
import Mathlib.Tactic.Linarith

namespace Cronwatch.Alerts

set_option autoImplicit false

open Cronwatch.Theory Cronwatch.Theory.HoldOff Cronwatch.Runtime Cronwatch.Jobs

/-- A job with the attribute `interval_seconds`, when it has one. -/
structure IntervalJob extends JobConfig where
  intervalSeconds : Option Int := none

structure MissedJob where
  jobName : String
  lastRun : Option DateTime
  expectedBy : DateTime
  graceSeconds : Int
deriving DecidableEq

namespace MissedJob

def str (isoformat : DateTime → String) (m : MissedJob) : String :=
  "Job '" ++ m.jobName ++ "' missed its window (expected by " ++ isoformat m.expectedBy ++
    ", last run: " ++ (m.lastRun.elim "never" isoformat) ++ ")"

def subject (m : MissedJob) : String := "[cronwatch] Missed job: " ++ m.jobName

end MissedJob

/-- `t.replace(second=t.second, microsecond=0)`. -/
def wholeSecond (t : DateTime) : DateTime := t / seconds 1 * seconds 1

/-- The entry that one job adds to the list of missed ones; `get` are the start times
recorded for a name. -/
def missed? (get : String → List DateTime) (graceSeconds : Int) (now : DateTime)
    (job : IntervalJob) : Option MissedJob :=
  match job.intervalSeconds with
  | none => none
  | some interval =>
      if interval ≤ 0 then none
      else
        let lastRun := (get job.name).max?
        -- a job that has never run counts from the epoch
        let baseline := lastRun.getD 0
        let expectedBy := wholeSecond baseline + seconds interval
        let deadline := expectedBy + seconds graceSeconds
        if now > deadline then some { jobName := job.name, lastRun, expectedBy, graceSeconds }
        else none

def checkMissed (jobs : List IntervalJob) (get : String → List DateTime) (graceSeconds : Int)
    (now : DateTime) : List MissedJob :=
  jobs.filterMap (missed? get graceSeconds now)

namespace Watchdog

/-- A call of the alerter, with the time of its check. -/
structure Alert where
  missed : MissedJob
  sentAt : DateTime
deriving DecidableEq

/-- `self._alerter.send(subject=..., body=...)`, which may depend on the calls before. -/
abbrev Send := List Alert → String → String → Except PyException Unit

end Watchdog

structure Watchdog where
  jobs : List IntervalJob
  grace : Int := 60
  alerted : Dict String DateTime := .empty
  calls : List Watchdog.Alert := []

namespace Watchdog

def new (jobs : List IntervalJob) (grace : Int) : Watchdog := { jobs, grace }

/-- An hour is over since the last alert. -/
def passed (lastAlerted now : DateTime) : Prop := now - lastAlerted ≥ seconds 3600

instance (lastAlerted now : DateTime) : Decidable (passed lastAlerted now) :=
  inferInstanceAs (Decidable (_ ≥ _))

section Check

variable (isoformat : DateTime → String) (send : Send) (now : DateTime)

def alert (m : MissedJob) (w : Watchdog) : Except PyException Unit × Watchdog :=
  match send w.calls m.subject (m.str isoformat) with
  | .error e => (.error e, { w with calls := w.calls ++ [⟨m, now⟩] })
  | .ok () =>
      (.ok (), { w with calls := w.calls ++ [⟨m, now⟩], alerted := w.alerted.set m.jobName now })

/-- The body of the loop for one missed job. -/
def process (m : MissedJob) (w : Watchdog) : Except PyException Unit × Watchdog :=
  match w.alerted.get? m.jobName with
  | none => alert isoformat send now m w
  | some lastAlerted =>
      if passed lastAlerted now then alert isoformat send now m w else (.ok (), w)

def alertLoop : List MissedJob → Watchdog → Except PyException Unit × Watchdog
  | [], w => (.ok (), w)
  | m :: rest, w =>
      match process isoformat send now m w with
      | (.error e, w) => (.error e, w)
      | (.ok (), w) => alertLoop rest w

def check (get : String → List DateTime) (w : Watchdog) :
    Except PyException (List MissedJob) × Watchdog :=
  let missed := checkMissed w.jobs get w.grace now
  match alertLoop isoformat send now missed w with
  | (.error e, w) => (.error e, w)
  | (.ok (), w) => (.ok missed, w)

end Check

/-! ## The watchdog beside the history -/

inductive Event where
  | ran (jobName : String) (startedAt : DateTime)
  | check (now : DateTime)
deriving DecidableEq

def Event.time? : Event → Option DateTime
  | .ran _ _ => none
  | .check now => some now

def Event.run? : Event → Option (String × DateTime)
  | .ran jobName startedAt => some (jobName, startedAt)
  | .check _ => none

/-- The runs recorded, in order. -/
def runs (events : List Event) : List (String × DateTime) := events.filterMap Event.run?

/-- What `store.get` answers: the start times recorded for the name. -/
def history (recorded : List (String × DateTime)) (jobName : String) : List DateTime :=
  times jobName recorded

structure World where
  recorded : List (String × DateTime) := []
  watchdog : Watchdog

section Run

variable (isoformat : DateTime → String) (send : Send)

def step (w : World) : Event → World
  | .ran jobName startedAt => { w with recorded := w.recorded ++ [(jobName, startedAt)] }
  | .check now =>
      { w with watchdog := (w.watchdog.check isoformat send now (history w.recorded)).2 }

def run (events : List Event) (w : World) : World := events.foldl (step isoformat send) w

end Run

/-- The checks come in order of time. -/
def Nondecreasing (events : List Event) : Prop := (events.filterMap Event.time?).Pairwise (· ≤ ·)

instance (events : List Event) : Decidable (Nondecreasing events) :=
  inferInstanceAs (Decidable (List.Pairwise _ _))

/-- The alerter returns. -/
def Returns (send : Send) : Prop := ∀ calls subject body, send calls subject body = .ok ()

/-! ## One missed job, and one check -/

/-- The alerts as acts of the jobs they are about. -/
def log (w : Watchdog) : List (String × DateTime) :=
  w.calls.map fun call => (call.missed.jobName, call.sentAt)

section Lemmas

variable {isoformat : DateTime → String} {send : Send} {now : DateTime}

@[simp] theorem log_alert (w : Watchdog) (m : MissedJob) (sentAt : DateTime)
    (alerted : Dict String DateTime) :
    log { w with calls := w.calls ++ [⟨m, sentAt⟩], alerted } = w.log ++ [(m.jobName, sentAt)] := by
  simp [log]

/-- A missed job is alerted for, or held off by an earlier alert. -/
theorem process_cases (returns : Returns send) (isoformat : DateTime → String) (now : DateTime)
    (m : MissedJob) (w : Watchdog) :
    process isoformat send now m w = (.ok (),
        { w with calls := w.calls ++ [⟨m, now⟩], alerted := w.alerted.set m.jobName now }) ∨
      (process isoformat send now m w = (.ok (), w) ∧
        ¬ Free (fun _ => passed) w.alerted m.jobName now) := by
  have sends : alert isoformat send now m w = (.ok (),
      { w with calls := w.calls ++ [⟨m, now⟩], alerted := w.alerted.set m.jobName now }) := by
    rw [alert, returns]
  unfold process
  cases stamp : w.alerted.get? m.jobName with
  | none => exact .inl sends
  | some lastAlerted =>
      dsimp only
      by_cases over_ : passed lastAlerted now
      · rw [if_pos over_]
        exact .inl sends
      · rw [if_neg over_]
        exact .inr ⟨rfl, fun free => over_ (free lastAlerted stamp)⟩

theorem not_passed_self (now : DateTime) : ¬ passed now now := by
  rw [passed, sub_self, ge_iff_le, not_le]
  decide

/-- **One check.**  Every missed job has an alert less than an hour old, either an
earlier one or one of this check. -/
theorem alertLoop_alerts (returns : Returns send) (isoformat : DateTime → String)
    (missed : List MissedJob) {w : Watchdog} (stamped : Stamped now w.log w.alerted) :
    (alertLoop isoformat send now missed w).1 = .ok () ∧
      (alertLoop isoformat send now missed w).2.jobs = w.jobs ∧
      (alertLoop isoformat send now missed w).2.grace = w.grace ∧
      Stamped now (alertLoop isoformat send now missed w).2.log
        (alertLoop isoformat send now missed w).2.alerted ∧
      (∃ new, (alertLoop isoformat send now missed w).2.log = w.log ++ new ∧
        ∀ act ∈ new, act.2 = now) ∧
      ∀ m ∈ missed, ∃ t, (m.jobName, t) ∈ (alertLoop isoformat send now missed w).2.log ∧
        t ≤ now ∧ ¬ passed t now := by
  induction missed generalizing w with
  | nil =>
      exact ⟨rfl, rfl, rfl, stamped, ⟨[], (List.append_nil _).symm, by simp⟩,
        fun _ impossible => by cases impossible⟩
  | cons m rest ih =>
      rw [alertLoop]
      rcases process_cases returns isoformat now m w with sent | ⟨quiet, held⟩
      · rw [sent]
        dsimp only
        let w' : Watchdog :=
          { w with calls := w.calls ++ [⟨m, now⟩], alerted := w.alerted.set m.jobName now }
        have logged : w'.log = w.log ++ [(m.jobName, now)] := log_alert w m now _
        have stamped' : Stamped now w'.log w'.alerted := by
          rw [logged]
          exact stamped.act m.jobName
        obtain ⟨returned, jobs, grace, kept, ⟨new, grown, fresh⟩, alerts⟩ := ih stamped'
        rw [logged, List.append_assoc, List.singleton_append] at grown
        refine ⟨returned, jobs, grace, kept, ⟨_, grown, ?_⟩, ?_⟩
        · exact List.forall_mem_cons.mpr ⟨rfl, fresh⟩
        · refine List.forall_mem_cons.mpr ⟨⟨now, ?_, le_rfl, not_passed_self now⟩, alerts⟩
          rw [grown]
          simp
      · rw [quiet]
        dsimp only
        obtain ⟨returned, jobs, grace, kept, ⟨new, grown, fresh⟩, alerts⟩ := ih stamped
        refine ⟨returned, jobs, grace, kept, ⟨new, grown, fresh⟩, ?_⟩
        refine List.forall_mem_cons.mpr ⟨?_, alerts⟩
        obtain ⟨t, acted, past, recent⟩ := stamped.exists_act held
        refine ⟨t, ?_, past, recent⟩
        rw [grown]
        exact List.mem_append_left _ acted

/-- With an alerter that returns, `check` returns the missed jobs. -/
theorem check_eq (returns : Returns send) (isoformat : DateTime → String)
    (get : String → List DateTime) {w : Watchdog} (stamped : Stamped now w.log w.alerted) :
    w.check isoformat send now get = (.ok (checkMissed w.jobs get w.grace now),
      (alertLoop isoformat send now (checkMissed w.jobs get w.grace now) w).2) := by
  have returned := (alertLoop_alerts returns isoformat (checkMissed w.jobs get w.grace now)
    stamped).1
  rw [check]
  rcases loop : alertLoop isoformat send now (checkMissed w.jobs get w.grace now) w with
    ⟨answer, w'⟩
  rw [loop] at returned
  cases returned
  rfl

end Lemmas

/-! ## Any run -/

section Runs

variable {isoformat : DateTime → String} {send : Send}

/-- An act of the log is a call of the alerter. -/
theorem exists_call {w : Watchdog} {jobName : String} {t : DateTime}
    (acted : (jobName, t) ∈ w.log) : ∃ alert ∈ w.calls, alert.missed.jobName = jobName ∧
      alert.sentAt = t := by
  obtain ⟨alert, member, same⟩ := List.mem_map.mp acted
  obtain ⟨named, sent⟩ := Prod.mk.inj same
  exact ⟨alert, member, named, sent⟩

theorem run_append_single (events : List Event) (e : Event) (w : World) :
    run isoformat send (events ++ [e]) w = step isoformat send (run isoformat send events w) e := by
  simp [run]

/-- What a run keeps: the configuration, the history, and stamps that are alerts of the
past. -/
theorem run_keeps (returns : Returns send) (isoformat : DateTime → String)
    (jobs : List IntervalJob) (grace : Int) {events : List Event} (ordered : Nondecreasing events)
    {now : DateTime} (past : ∀ t ∈ events.filterMap Event.time?, t ≤ now) :
    (run isoformat send events { watchdog := new jobs grace }).recorded = runs events ∧
      (run isoformat send events { watchdog := new jobs grace }).watchdog.jobs = jobs ∧
      (run isoformat send events { watchdog := new jobs grace }).watchdog.grace = grace ∧
      Stamped now (run isoformat send events { watchdog := new jobs grace }).watchdog.log
        (run isoformat send events { watchdog := new jobs grace }).watchdog.alerted := by
  induction events using List.reverseRecOn generalizing now with
  | nil => exact ⟨rfl, rfl, rfl, Stamped.start now⟩
  | append_singleton before e ih =>
      obtain ⟨orderedBefore, earlier⟩ := ordered_front ordered
      rw [List.filterMap_append] at past
      rw [run_append_single, runs, List.filterMap_append, ← runs]
      cases e with
      | ran jobName startedAt =>
          obtain ⟨recorded, sameJobs, sameGrace, stamped⟩ :=
            ih orderedBefore fun t member => past t (List.mem_append_left _ member)
          refine ⟨?_, sameJobs, sameGrace, stamped⟩
          simp [step, recorded, Event.run?]
      | check t =>
          have le : t ≤ now := past t (by simp [Event.time?])
          obtain ⟨recorded, sameJobs, sameGrace, stamped⟩ := ih orderedBefore (earlier t rfl)
          rw [step, check_eq returns isoformat _ stamped]
          obtain ⟨-, loopJobs, loopGrace, kept, -⟩ :=
            alertLoop_alerts returns isoformat (checkMissed _ _ _ t) stamped
          refine ⟨?_, loopJobs.trans sameJobs, loopGrace.trans sameGrace, kept.wait le⟩
          simp [recorded, Event.run?]

/-- A job is missed no earlier than its latest run, unless the grace is negative. -/
theorem lastRun_lt {get : String → List DateTime} {grace : Int} (nonneg : 0 ≤ grace)
    {now : DateTime} {job : IntervalJob} {m : MissedJob}
    (reported : missed? get grace now job = some m) {s : DateTime} (last : m.lastRun = some s) : s < now := by
  unfold missed? at reported
  split at reported
  · cases reported
  · rename_i interval _
    split at reported
    · cases reported
    · rename_i positive
      dsimp only at reported
      split at reported
      · rename_i late
        cases reported
        dsimp only at last
        rw [last, Option.getD_some] at late
        simp only [wholeSecond, seconds] at late
        lia
      · cases reported

/-- **Every missed window is alerted, or held off for an hour.**  When `check` reports a
job as missed, an alert for it less than an hour old has been sent, this check's at the
latest; if its last run started at `s`, one has been sent since `s` unless the alert that
holds off a new one was sent at or before `s`. -/
theorem missed_alerted_or_held (isoformat : DateTime → String) (returns : Returns send)
    (jobs : List IntervalJob) (grace : Int) {events : List Event} (ordered : Nondecreasing events) :
    ∀ before now after, events = before ++ .check now :: after →
      (run isoformat send before { watchdog := new jobs grace }).watchdog.check isoformat send now
          (history (runs before)) =
        (.ok (checkMissed jobs (history (runs before)) grace now),
          (run isoformat send (before ++ [.check now]) { watchdog := new jobs grace }).watchdog) ∧
      ∀ m ∈ checkMissed jobs (history (runs before)) grace now,
        (∃ alert ∈ (run isoformat send (before ++ [.check now])
            { watchdog := new jobs grace }).watchdog.calls,
          alert.missed.jobName = m.jobName ∧ alert.sentAt ≤ now ∧
            now - alert.sentAt < seconds 3600) ∧
        ∀ s, m.lastRun = some s → (0 ≤ grace → s < now) ∧
          (s < now →
            (∃ alert ∈ (run isoformat send (before ++ [.check now])
                { watchdog := new jobs grace }).watchdog.calls,
              alert.missed.jobName = m.jobName ∧ s < alert.sentAt ∧ alert.sentAt ≤ now) ∨
            ∃ alert ∈ (run isoformat send before { watchdog := new jobs grace }).watchdog.calls,
              alert.missed.jobName = m.jobName ∧ alert.sentAt ≤ s ∧
                now - alert.sentAt < seconds 3600) := by
  rintro before now after rfl
  obtain ⟨orderedBefore, earlier⟩ := ordered_front ordered
  obtain ⟨recorded, sameJobs, sameGrace, stamped⟩ :=
    run_keeps returns isoformat jobs grace orderedBefore (earlier now rfl)
  let missed := checkMissed jobs (history (runs before)) grace now
  let w := (run isoformat send before { watchdog := new jobs grace }).watchdog
  have checked : w.check isoformat send now (history (runs before)) =
      (.ok missed, (alertLoop isoformat send now missed w).2) := by
    rw [check_eq returns isoformat _ stamped, sameJobs, sameGrace]
  have reached : (run isoformat send (before ++ [.check now])
      { watchdog := new jobs grace }).watchdog = (alertLoop isoformat send now missed w).2 := by
    rw [run_append_single, step, recorded, checked]
  rw [reached]
  refine ⟨checked, fun m reported => ?_⟩
  obtain ⟨-, -, -, -, ⟨new, grown, fresh⟩, alerts⟩ :=
    alertLoop_alerts returns isoformat missed stamped
  obtain ⟨t, acted, past, recent⟩ := alerts m reported
  have young : now - t < seconds 3600 := not_le.mp recent
  obtain ⟨alert, called, named, rfl⟩ := exists_call acted
  refine ⟨⟨alert, called, named, past, young⟩, fun s last => ⟨fun nonneg => ?_, fun lt => ?_⟩⟩
  · obtain ⟨job, -, reported⟩ := List.mem_filterMap.mp reported
    exact lastRun_lt nonneg reported last
  · rcases lt_or_ge s alert.sentAt with since | before
    · exact .inl ⟨alert, called, named, since, past⟩
    · -- the alert is not one of this check, whose alerts are later than `s`
      rw [grown] at acted
      have old : (m.jobName, alert.sentAt) ∈ w.log := by
        refine (List.mem_append.mp acted).resolve_right fun this => ?_
        have same : alert.sentAt = now := fresh _ this
        exact (before.trans_lt lt).ne same
      obtain ⟨earlier, called, named, sent⟩ := exists_call old
      refine .inr ⟨earlier, called, named, ?_, ?_⟩
      · rwa [sent]
      · rwa [sent]

/-- A job on every minute, recorded by a history of runs. -/
def backup : IntervalJob where
  name := "backup"
  command := "backup.sh"
  schedule := "* * * * *"
  intervalSeconds := some 60

def accepting : Send := fun _ _ _ => .ok ()

/-- The check at 61 s alerts for the run at 0 s, and the job has run again since. -/
def recovered : List Event := [.ran "backup" 0, .check (seconds 61), .ran "backup" (seconds 100)]

theorem first_miss_alerted : ∃ alert ∈ (run (fun _ => "") accepting
      [.ran "backup" 0, .check (seconds 61)] { watchdog := new [backup] 0 }).watchdog.calls,
    alert.missed.jobName = "backup" ∧ 0 < alert.sentAt ∧ alert.sentAt ≤ seconds 61 := by
  have returns : Returns accepting := fun _ _ _ => rfl
  have ordered : Nondecreasing recovered := by decide
  obtain ⟨-, reported⟩ := missed_alerted_or_held (fun _ => "") returns [backup] 0 ordered
    [.ran "backup" 0] (seconds 61) _ rfl
  have missed : (⟨"backup", some 0, seconds 60, 0⟩ : MissedJob) ∈
      checkMissed [backup] (history (runs [.ran "backup" 0])) 0 (seconds 61) := by
    decide +kernel
  rcases ((reported _ missed).2 0 rfl).2 (by decide) with sent | ⟨alert, called, -⟩
  · exact sent
  · cases called

/-- **The hold outlasts a recovery.**  The check at 161 s reports the job, whose last run
started at 100 s, and no alert for it has been sent since. -/
theorem second_miss_held :
    Returns accepting ∧ Nondecreasing (recovered ++ [.check (seconds 161)]) ∧
      ((run (fun _ => "") accepting recovered { watchdog := new [backup] 0 }).watchdog.check
          (fun _ => "") accepting (seconds 161) (history (runs recovered))).1 =
        .ok [⟨"backup", some (seconds 100), seconds 160, 0⟩] ∧
      ¬ ∃ alert ∈ (run (fun _ => "") accepting (recovered ++ [.check (seconds 161)])
          { watchdog := new [backup] 0 }).watchdog.calls,
        alert.missed.jobName = "backup" ∧ seconds 100 < alert.sentAt ∧
          alert.sentAt ≤ seconds 161 := by
  refine ⟨fun _ _ _ => rfl, by decide, by decide +kernel, by decide +kernel⟩

end Runs

end Watchdog

end Cronwatch.Alerts
