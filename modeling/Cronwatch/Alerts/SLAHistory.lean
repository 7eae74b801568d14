/-
# Alerts.SLAHistory -- the SLA of the recorded runs

`SLATracker` evaluates the SLA of a job over the entries that `HistoryStore` has for it.
`evaluate_sla` compares `started_at` of an entry with a time and adds up its `duration_seconds`.
The entries of the store have a text for the one and no attribute of the other name.  The two
attributes are parameters, as in `Jobs.HistoryFiles`.

As written the tracker can evaluate a job only while nothing is recorded for it, and then the job
is healthy (`statusFor_eq_ok_iff`); its window has to begin in a year of the calendar.  So an
`SLAAlerter` on the tracker of a history never alerts, whatever is recorded between its checks
(`never_alerts`).
-/
import Cronwatch.Alerts.SLA
import Cronwatch.Jobs.HistoryFiles

namespace Cronwatch.Alerts

set_option autoImplicit false

open Cronwatch.Theory Cronwatch.Theory.Loop Cronwatch.Runtime Cronwatch.Jobs

structure SLAThresholds where
  minSuccessRate : ℚ := 1
  /-- No limit where it is zero. -/
  maxDurationSeconds : ℚ := 0
  windowHours : Int := 24

/-- The policies in `per_job` are asked for nothing but their thresholds. -/
structure SLAPolicy extends SLAThresholds where
  perJob : Dict String SLAThresholds := .empty

def SLAPolicy.forJob (jobName : String) (policy : SLAPolicy) : SLAThresholds :=
  (policy.perJob.get? jobName).getD policy.toSLAThresholds

/-- What `evaluate_sla` reads of an entry, beside `success`. -/
structure SLAAttributes where
  /-- `e.started_at >= cutoff`. -/
  startedFrom : DateTime → HistoryEntry → Except PyException Bool
  durationSeconds : HistoryEntry → Except PyException ℚ

namespace SLAAttributes

/-- The attributes that a `HistoryEntry` has. -/
def asWritten : SLAAttributes where
  startedFrom := fun _ _ => .error
    (.typeError "'>=' not supported between instances of 'str' and 'datetime.datetime'")
  durationSeconds := fun _ => .error
    (.attributeError "'HistoryEntry' object has no attribute 'duration_seconds'")

/-- With the start of an entry as a time, and its duration under this name. -/
def intended (startedAt : HistoryEntry → DateTime) : SLAAttributes where
  startedFrom := fun cutoff entry => .ok (cutoff ≤ startedAt entry)
  durationSeconds := fun entry => .ok entry.duration

end SLAAttributes

/-- A time of the years 1 to 9999. -/
def InCalendar (t : DateTime) : Prop := seconds (-62135596800) ≤ t ∧ t < seconds 253402300800

instance : DecidablePred InCalendar := fun _ => inferInstanceAs (Decidable (_ ∧ _))

/-- `_utcnow() - timedelta(hours=hours)`. -/
def hoursBefore (utcnow : DateTime) (hours : Int) : Except PyException DateTime :=
  let t := utcnow - seconds (hours * 3600)
  -- too many hours for a `timedelta` raise the same with another text
  if InCalendar t then .ok t else .error (.overflowError "date value out of range")

def evaluateSla (attributes : SLAAttributes) (utcnow : DateTime) (jobName : String)
    (entries : List HistoryEntry) (policy : SLAPolicy) : Except PyException SLAStatus := do
  let p := policy.forJob jobName
  let cutoff ← hoursBefore utcnow p.windowHours
  let recent ← entries.filterM (attributes.startedFrom cutoff)
  if recent = [] then
    return { jobName
             windowHours := p.windowHours
             totalRuns := 0
             successfulRuns := 0
             successRate := 1
             avgDurationSeconds := 0
             meetsSuccessRate := true
             meetsDuration := true }
  else
    let successes := recent.countP HistoryEntry.success
    let rate : ℚ := successes / recent.length
    let avgDur := (← recent.mapM attributes.durationSeconds).sum / recent.length
    return { jobName
             windowHours := p.windowHours
             totalRuns := recent.length
             successfulRuns := successes
             successRate := rate
             avgDurationSeconds := avgDur
             meetsSuccessRate := p.minSuccessRate ≤ rate
             meetsDuration := p.maxDurationSeconds = 0 || avgDur ≤ p.maxDurationSeconds }

structure SLATracker where
  json : Json
  policy : SLAPolicy := {}

namespace SLATracker

section Attributes

variable (attributes : SLAAttributes) (utcnow : DateTime) (dir : HistoryFiles)

def statusForWith (jobName : String) (tracker : SLATracker) : Except PyException SLAStatus := do
  evaluateSla attributes utcnow jobName (← dir.entriesFor tracker.json jobName) tracker.policy

end Attributes

variable (utcnow : DateTime) (dir : HistoryFiles) (jobNames : List String)

def statusFor (jobName : String) (tracker : SLATracker) : Except PyException SLAStatus :=
  tracker.statusForWith .asWritten utcnow dir jobName

def allStatuses (tracker : SLATracker) : Except PyException (List SLAStatus) :=
  jobNames.mapM fun jobName => tracker.statusFor utcnow dir jobName

def violations (tracker : SLATracker) : Except PyException (List SLAStatus) := do
  return (← tracker.allStatuses utcnow dir jobNames).filter fun status => !status.healthy

variable {utcnow dir jobNames} {tracker : SLATracker}

/-- The status of a job without entries. -/
def unrecorded (jobName : String) (policy : SLAPolicy) : SLAStatus where
  jobName := jobName
  windowHours := (policy.forJob jobName).windowHours
  totalRuns := 0
  successfulRuns := 0
  successRate := 1
  avgDurationSeconds := 0
  meetsSuccessRate := true
  meetsDuration := true

/-- Nothing is recorded for the job, and its window begins in the calendar. -/
def Evaluable (utcnow : DateTime) (dir : HistoryFiles) (jobName : String) (tracker : SLATracker) : Prop :=
  dir.entriesFor tracker.json jobName = .ok [] ∧
    InCalendar (utcnow - seconds ((tracker.policy.forJob jobName).windowHours * 3600))

instance (utcnow : DateTime) (dir : HistoryFiles) (jobName : String) (tracker : SLATracker) :
    Decidable (tracker.Evaluable utcnow dir jobName) := inferInstanceAs (Decidable (_ ∧ _))

/-- Without entries it is the window that decides. -/
theorem evaluateSla_nil (jobName : String) (policy : SLAPolicy) (status : SLAStatus) :
    evaluateSla .asWritten utcnow jobName [] policy = .ok status ↔
      InCalendar (utcnow - seconds ((policy.forJob jobName).windowHours * 3600)) ∧
        status = unrecorded jobName policy := by
  rw [evaluateSla, hoursBefore]
  dsimp only
  split
  · rename_i inside
    show Except.ok (unrecorded jobName policy) = .ok status ↔ _
    rw [Except.ok.injEq, eq_comm, and_iff_right inside]
  · rename_i outside
    exact iff_of_false (fun returned => by cases returned) fun ⟨inside, _⟩ => outside inside

/-- An entry cannot be evaluated. -/
theorem evaluateSla_cons (utcnow : DateTime) (jobName : String) (entry : HistoryEntry)
    (rest : List HistoryEntry) (policy : SLAPolicy) :
    ∃ e, evaluateSla .asWritten utcnow jobName (entry :: rest) policy = .error e := by
  rw [evaluateSla, hoursBefore]
  dsimp only
  split
  · exact ⟨_, rfl⟩
  · exact ⟨_, rfl⟩

/-- **What the tracker can evaluate**: a job for which nothing is recorded, which is healthy. -/
theorem statusFor_eq_ok_iff (jobName : String) (status : SLAStatus) :
    tracker.statusFor utcnow dir jobName = .ok status ↔
      tracker.Evaluable utcnow dir jobName ∧ status = unrecorded jobName tracker.policy := by
  rw [statusFor, statusForWith, Evaluable]
  cases dir.entriesFor tracker.json jobName with
  | error e =>
      refine iff_of_false (fun returned => ?_) (fun returned => ?_)
      · cases returned
      · cases returned.1.1
  | ok entries =>
      cases entries with
      | nil =>
          rw [eq_self, true_and]
          exact evaluateSla_nil jobName tracker.policy status
      | cons entry rest =>
          refine iff_of_false (fun returned => ?_) (fun returned => ?_)
          · change evaluateSla .asWritten utcnow jobName (entry :: rest) tracker.policy = _ at returned
            obtain ⟨e, failed⟩ := evaluateSla_cons utcnow jobName entry rest tracker.policy
            rw [failed] at returned
            cases returned
          · cases returned.1.1

theorem healthy_of_returned {jobName : String} {status : SLAStatus}
    (returned : tracker.statusFor utcnow dir jobName = .ok status) : status.healthy = true := by
  rw [((statusFor_eq_ok_iff jobName status).mp returned).2]
  rfl

theorem statusFor_returns_iff (utcnow : DateTime) (jobName : String) :
    (∃ status, tracker.statusFor utcnow dir jobName = .ok status) ↔
      tracker.Evaluable utcnow dir jobName := by
  simp only [statusFor_eq_ok_iff]
  exact ⟨fun ⟨_, evaluable, _⟩ => evaluable, fun evaluable => ⟨_, evaluable, rfl⟩⟩

theorem violations_returns_iff (utcnow : DateTime) :
    (∃ listed, tracker.violations utcnow dir jobNames = .ok listed) ↔
      ∀ name ∈ jobNames, tracker.Evaluable utcnow dir name := by
  simp only [← statusFor_returns_iff utcnow]
  rw [violations, bind_returns_iff, ← mapM_returns_iff]
  exact ⟨fun ⟨statuses, all, _⟩ => ⟨statuses, all⟩, fun ⟨statuses, all⟩ => ⟨statuses, all, _, rfl⟩⟩

/-- The violations that the tracker lists, if it returns, are none. -/
theorem violations_eq_ok {listed : List SLAStatus}
    (returned : tracker.violations utcnow dir jobNames = .ok listed) : listed = [] := by
  obtain ⟨statuses, all, kept⟩ := returned_of_bind returned
  cases kept
  rw [List.filter_eq_nil_iff]
  intro status member
  obtain ⟨jobName, -, evaluated⟩ := of_mem_mapM all member
  rw [healthy_of_returned evaluated]
  decide

end SLATracker

namespace SLAAlerter

/-- A check on a tracker: the time, what the history holds then, and the jobs. -/
structure Check where
  utcnow : DateTime
  dir : HistoryFiles
  jobNames : List String

section Watch

variable (attributes : SLAAttributes) (tracker : SLATracker)
  (send : List Entry → Message → Except PyException Unit)

def envOf (c : Check) : Env where
  statusFor := fun _ name => tracker.statusForWith attributes c.utcnow c.dir name
  send := send

/-- The checks of one alerter, with any changes of the history between them. -/
def watch (calls : List Check) (a : SLAAlerter) : SLAAlerter :=
  calls.foldl (fun a c => (a.check (envOf attributes tracker send c) c.jobNames).2) a

/-- As written a job that can be evaluated is found healthy, and the turn of any other raises. -/
theorem evaluate_asWritten (c : Check) (name : String) (a : SLAAlerter) :
    (tracker.Evaluable c.utcnow c.dir name ∧
        a.evaluate (envOf .asWritten tracker send c) name =
          (.ok none, (a.logged (.evaluated name true)).mark name false)) ∨
      (¬ tracker.Evaluable c.utcnow c.dir name ∧
        ∃ e, a.evaluate (envOf .asWritten tracker send c) name = (.error e, a)) := by
  have answer : ∀ log, (envOf .asWritten tracker send c).statusFor log name =
      tracker.statusFor c.utcnow c.dir name := fun _ => rfl
  rw [evaluate, answer]
  cases evaluated : tracker.statusFor c.utcnow c.dir name with
  | error e =>
      refine .inr ⟨fun evaluable => ?_, e, rfl⟩
      have returned := (SLATracker.statusFor_returns_iff c.utcnow name).mpr evaluable
      rw [evaluated] at returned
      obtain ⟨_, impossible⟩ := returned
      cases impossible
  | ok status =>
      obtain ⟨evaluable, rfl⟩ := (SLATracker.statusFor_eq_ok_iff name status).mp evaluated
      exact .inl ⟨evaluable, rfl⟩

/-- A check returns as long as all jobs that it names can be evaluated, and then with nothing. -/
theorem check_asWritten (c : Check) (jobNames : List String) (a : SLAAlerter) :
    if ∀ name ∈ jobNames, tracker.Evaluable c.utcnow c.dir name
      then (a.check (envOf .asWritten tracker send c) jobNames).1 = .ok []
      else ∃ e, (a.check (envOf .asWritten tracker send c) jobNames).1 = .error e := by
  induction jobNames generalizing a with
  | nil => simp [SLAAlerter.check, loop]
  | cons first rest ih =>
      simp only [List.forall_mem_cons]
      rcases evaluate_asWritten tracker send c first a with
        ⟨evaluable, found⟩ | ⟨other, e, failed⟩
      · have later := ih ((a.logged (.evaluated first true)).mark first false)
        rw [SLAAlerter.check] at later ⊢
        rw [loop_cons_of_ok found]
        simp only [evaluable, true_and]
        split at later
        · rename_i all
          rw [if_pos all, later]
          rfl
        · rename_i other
          obtain ⟨e, raised⟩ := later
          rw [if_neg other]
          exact ⟨e, by rw [raised]; rfl⟩
      · rw [if_neg fun all => other all.1, SLAAlerter.check, loop_cons_of_error failed]
        exact ⟨e, rfl⟩

/-- Nothing but evaluations is in the log. -/
def Quiet (a : SLAAlerter) : Prop := ∀ e ∈ a.log, e.alertee? = none

theorem Quiet.evaluate {a : SLAAlerter} (quiet : a.Quiet) (c : Check) (name : String) :
    (a.evaluate (envOf .asWritten tracker send c) name).2.Quiet := by
  rcases evaluate_asWritten tracker send c name a with ⟨-, found⟩ | ⟨-, e, failed⟩
  · rw [found]
    intro e member
    rcases List.mem_append.mp member with earlier | last
    · exact quiet e earlier
    · rw [List.mem_singleton.mp last]
      rfl
  · rw [failed]
    exact quiet

theorem quiet_watch (calls : List Check) : (watch .asWritten tracker send calls {}).Quiet := by
  induction calls using List.reverseRecOn with
  | nil =>
      intro e member
      cases member
  | append_singleton before c ih =>
      rw [watch, List.foldl_append]
      exact loop_invariant (fun name _ _ quiet => Quiet.evaluate tracker send quiet c name) ih

/-- **The SLA alerter of a history never alerts**, whatever the policy and the thresholds, and
whatever is recorded, replaced or lost between its checks.  The next check returns no violation
where nothing is recorded for any job that it names and their windows begin in the calendar, and
raises otherwise; and so does the list of violations of the tracker. -/
theorem never_alerts (tracker : SLATracker) (send : List Entry → Message → Except PyException Unit)
    (calls : List Check) (next : Check) :
    let a := watch .asWritten tracker send calls {}
    let evaluable := ∀ name ∈ next.jobNames, tracker.Evaluable next.utcnow next.dir name
    (∀ name message sent, .alerted name message sent ∉ a.log) ∧
      (evaluable → (a.check (envOf .asWritten tracker send next) next.jobNames).1 = .ok [] ∧
        tracker.violations next.utcnow next.dir next.jobNames = .ok []) ∧
      (¬ evaluable → (∃ e, (a.check (envOf .asWritten tracker send next) next.jobNames).1 = .error e) ∧
        ∃ e, tracker.violations next.utcnow next.dir next.jobNames = .error e) := by
  intro a evaluable
  have checked := check_asWritten tracker send next next.jobNames a
  refine ⟨fun name message sent member => ?_, fun all => ?_, fun notAll => ?_⟩
  · have quiet := quiet_watch tracker send calls _ member
    cases quiet
  · rw [if_pos all] at checked
    obtain ⟨listed, returned⟩ := (SLATracker.violations_returns_iff next.utcnow).mpr all
    exact ⟨checked, by rw [returned, SLATracker.violations_eq_ok returned]⟩
  · rw [if_neg notAll] at checked
    refine ⟨checked, ?_⟩
    cases listed : tracker.violations next.utcnow next.dir next.jobNames with
    | error e => exact ⟨e, rfl⟩
    | ok violations => exact absurd ((SLATracker.violations_returns_iff _).mp ⟨violations, listed⟩) notAll

end Watch

/-- A failed run of `etl`. -/
def failedRun : HistoryEntry where
  jobName := "etl"
  success := false
  exitCode := 1
  duration := 3
  startedAt := "2024-06-01T12:00:00+00:00"

/-- It would be a breach, if it could be evaluated. -/
example :
    (evaluateSla (.intended fun _ => 0) 0 "etl" [failedRun] {}).map SLAStatus.healthy = .ok false ∧
      evaluateSla .asWritten 0 "etl" [failedRun] {} =
        .error (.typeError "'>=' not supported between instances of 'str' and 'datetime.datetime'") :=
  ⟨by decide +kernel, rfl⟩

end SLAAlerter

end Cronwatch.Alerts
