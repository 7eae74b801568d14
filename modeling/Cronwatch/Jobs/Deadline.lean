/-
# Jobs.Deadline -- jobs that must have started by a wall-clock time

`DeadlineChecker` keeps the latest dispatch of every job, with no day attached, and
`check` compares it with the deadline of the current day.  `repr` is how the
interpreter prints a string in an error message.

`Missed` is the daily law: today's deadline is over and the job was not dispatched
today at or before it.  `check_daily_iff` says for which dispatches `check` reports
exactly that: a dispatch of an earlier day hides a miss, and a second dispatch after
the deadline hides that the first one was in time (`check_breaks_daily`).
-/
import Cronwatch.Jobs.Config
import Cronwatch.Runtime.Clock
import Cronwatch.Theory.HoldOff

namespace Cronwatch.Jobs

set_option autoImplicit false

open Cronwatch.Theory Cronwatch.Theory.HoldOff Cronwatch.Runtime

/-- `datetime.time` with minute precision, in UTC. -/
structure TimeOfDay where
  hour : Fin 24
  minute : Fin 60
deriving DecidableEq

/-- The time on the calendar day of `now`. -/
def TimeOfDay.on (time : TimeOfDay) (now : DateTime) : DateTime :=
  midnight now + seconds (3600 * (time.hour : Int) + 60 * (time.minute : Int))

/-- A job with the attribute `deadline`, as text, when it has one. -/
structure DeadlineJob extends JobConfig where
  deadline : Option String := none

/-- The groups of `^(?P<h>\d{1,2}):(?P<m>\d{2})$` as numbers. -/
def hourMinute? : List Char → Option (Nat × Nat)
  | [h, ':', m, m'] =>
      match decimalValue? h, decimalValue? m, decimalValue? m' with
      | some h, some m, some m' => some (h, 10 * m + m')
      | _, _, _ => none
  | [h, h', ':', m, m'] =>
      match decimalValue? h, decimalValue? h', decimalValue? m, decimalValue? m' with
      | some h, some h', some m, some m' => some (10 * h + h', 10 * m + m')
      | _, _, _, _ => none
  | _ => none

section Parse

variable (repr : String → String)

def parseDeadline (value : String) : Except PyException TimeOfDay :=
  match hourMinute? (strip value.toList) with
  | none => .error (.valueError s!"Invalid deadline format {repr value}; expected HH:MM")
  | some (h, m) =>
      if inRange : h < 24 ∧ m < 60 then .ok ⟨⟨h, inRange.1⟩, ⟨m, inRange.2⟩⟩
      else .error (.valueError s!"Deadline {repr value} is out of range")

def deadlineFor (job : DeadlineJob) : Except PyException (Option TimeOfDay) :=
  match job.deadline with
  | none => .ok none
  | some raw => (parseDeadline repr raw).map some

end Parse

structure DeadlineViolation where
  jobName : String
  deadline : TimeOfDay
  checkedAt : DateTime
deriving DecidableEq

structure DeadlineChecker where
  jobs : List DeadlineJob
  dispatched : Dict String DateTime := .empty

namespace DeadlineChecker

def markDispatched (jobName : String) (when_ : DateTime) (c : DeadlineChecker) : DeadlineChecker :=
  { c with dispatched := c.dispatched.set jobName when_ }

/-- The test made for a job with a deadline. -/
def overdue (now : DateTime) (jobName : String) (deadline : TimeOfDay) (c : DeadlineChecker) :
    Bool :=
  if now < deadline.on now then false
  else
    match c.dispatched.get? jobName with
    | none => true
    | some dispatchedAt => deadline.on now < dispatchedAt

section Check

variable (repr : String → String) (now : DateTime)

def checkLoop (c : DeadlineChecker) : List DeadlineJob → Except PyException (List DeadlineViolation)
  | [] => .ok []
  | job :: rest =>
      match deadlineFor repr job with
      | .error e => .error e
      | .ok none => checkLoop c rest
      | .ok (some deadline) =>
          match checkLoop c rest with
          | .error e => .error e
          | .ok violations =>
              .ok (if c.overdue now job.name deadline then ⟨job.name, deadline, now⟩ :: violations
                else violations)

def check (c : DeadlineChecker) : Except PyException (List DeadlineViolation) :=
  checkLoop repr now c c.jobs

end Check

/-- The calls of `mark_dispatched` in order. -/
def markAll (marks : List (String × DateTime)) (c : DeadlineChecker) : DeadlineChecker :=
  marks.foldl (fun c mark => c.markDispatched mark.1 mark.2) c

/-! ## What is reported -/

/-- Every deadline can be read. -/
def Readable (repr : String → String) (jobs : List DeadlineJob) : Prop :=
  ∀ job ∈ jobs, ∃ deadline, deadlineFor repr job = .ok deadline

/-- The violation is that of a job with a deadline. -/
def Reports (repr : String → String) (now : DateTime) (c : DeadlineChecker)
    (jobs : List DeadlineJob) (violation : DeadlineViolation) : Prop :=
  ∃ job ∈ jobs, ∃ deadline, deadlineFor repr job = .ok (some deadline) ∧
    c.overdue now job.name deadline = true ∧ violation = ⟨job.name, deadline, now⟩

theorem checkLoop_returns {repr : String → String} (now : DateTime) (c : DeadlineChecker)
    {jobs : List DeadlineJob} (readable : Readable repr jobs) :
    ∃ violations, checkLoop repr now c jobs = .ok violations ∧
      ∀ violation, violation ∈ violations ↔ Reports repr now c jobs violation := by
  induction jobs with
  | nil => exact ⟨[], rfl, by simp [Reports]⟩
  | cons job rest ih =>
      obtain ⟨deadline, read⟩ := readable job List.mem_cons_self
      obtain ⟨violations, returned, spec⟩ := ih fun other member =>
        readable other (List.mem_cons_of_mem job member)
      rw [checkLoop, read]
      cases deadline with
      | none =>
          refine ⟨violations, returned, fun violation => ?_⟩
          rw [spec, Reports, Reports, List.exists_mem_cons_iff]
          simp [read]
      | some deadline =>
          dsimp only
          rw [returned]
          refine ⟨_, rfl, fun violation => ?_⟩
          rw [Reports, List.exists_mem_cons_iff, ← Reports, ← spec]
          cases late : c.overdue now job.name deadline with
          | true => simp [read, late]
          | false => simp [read, late]

/-- The checker holds the latest dispatch of every job. -/
theorem dispatched_markAll (jobs : List DeadlineJob) (marks : List (String × DateTime))
    (name : String) : (markAll marks { jobs }).dispatched.get? name = (times name marks).getLast? := by
  induction marks using List.reverseRecOn with
  | nil => rfl
  | append_singleton before mark ih =>
      obtain ⟨other, when_⟩ := mark
      rw [markAll, List.foldl_append, ← markAll, times_append_single]
      show ((markAll before { jobs }).dispatched.set other when_).get? name = _
      rw [Dict.get?_set, ih]
      by_cases same : name = other
      · subst same
        simp
      · rw [if_neg same, if_neg (Ne.symm same), List.append_nil]

theorem jobs_markAll (marks : List (String × DateTime)) (c : DeadlineChecker) :
    (markAll marks c).jobs = c.jobs := by
  induction marks generalizing c with
  | nil => rfl
  | cons mark rest ih => exact ih _

/-- In dispatches made in order of time, the latest one is not before any other. -/
theorem le_latest {marks : List (String × DateTime)}
    (sorted : (marks.map Prod.snd).Pairwise (· ≤ ·)) {name : String} {last : DateTime}
    (latest : (times name marks).getLast? = some last) :
    ∀ when_, (name, when_) ∈ marks → when_ ≤ last := by
  have sortedTimes : (times name marks).Pairwise (· ≤ ·) := by
    refine List.Pairwise.filterMap _ ?_ (List.pairwise_map.mp sorted)
    intro mark mark' le t is t' is'
    split at is
    · split at is'
      · cases is
        cases is'
        exact le
      · cases is'
    · cases is
  obtain ⟨front, split⟩ := List.getLast?_eq_some_iff.mp latest
  intro when_ member
  have dispatched : when_ ∈ times name marks := (mem_times name marks when_).mpr member
  rw [split] at sortedTimes dispatched
  rcases List.mem_append.mp dispatched with earlier | this
  · exact (List.pairwise_append.mp sortedTimes).2.2 when_ earlier last List.mem_cons_self
  · exact (List.mem_singleton.mp this).le

/-! ## The daily law -/

/-- Today's deadline is over, and no dispatch of the job was today at or before it. -/
def Missed (marks : List (String × DateTime)) (now : DateTime) (name : String)
    (deadline : TimeOfDay) : Prop :=
  deadline.on now ≤ now ∧
    ∀ when_, (name, when_) ∈ marks → day when_ = day now → ¬ when_ ≤ deadline.on now

/-- The latest dispatch of the job decides: there is none, or it was today and not after
the deadline, or it was after the deadline and none was today at or before it.  Before
the deadline there is nothing to decide. -/
def LatestDecides (marks : List (String × DateTime)) (now : DateTime) (name : String)
    (deadline : TimeOfDay) : Prop :=
  now < deadline.on now ∨
    match (times name marks).getLast? with
    | none => True
    | some last =>
        if last ≤ deadline.on now then day last = day now
        else ∀ when_, (name, when_) ∈ marks → day when_ = day now → ¬ when_ ≤ deadline.on now

theorem TimeOfDay.on_lt (time : TimeOfDay) (now : DateTime) :
    time.on now < midnight now + seconds 86400 := by
  have hour := time.hour.isLt
  have minute := time.minute.isLt
  simp only [TimeOfDay.on, seconds]
  lia

/-- For one deadline: the checker and the daily law agree exactly where the latest
dispatch decides. -/
theorem overdue_iff_missed_iff {c : DeadlineChecker} {marks : List (String × DateTime)}
    {name : String} (held : c.dispatched.get? name = (times name marks).getLast?)
    (sorted : (marks.map Prod.snd).Pairwise (· ≤ ·)) (now : DateTime) (deadline : TimeOfDay) :
    (c.overdue now name deadline = true ↔ Missed marks now name deadline) ↔
      LatestDecides marks now name deadline := by
  unfold overdue LatestDecides Missed
  rw [held]
  by_cases before : now < deadline.on now
  · simp [before, not_le.mpr before]
  · have over_ : deadline.on now ≤ now := not_lt.mp before
    rw [if_neg before, or_iff_right before]
    cases latest : (times name marks).getLast? with
    | none =>
        have none_ : ∀ when_, (name, when_) ∉ marks := by
          intro when_ member
          have dispatched := (mem_times name marks when_).mpr member
          rw [List.getLast?_eq_none_iff.mp latest] at dispatched
          cases dispatched
        simp [over_, none_]
    | some last =>
        dsimp only
        by_cases inTime : last ≤ deadline.on now
        · -- the checker is silent, so the law must name a dispatch of today
          have le := le_latest sorted latest
          have member : (name, last) ∈ marks :=
            (mem_times name marks last).mp (List.mem_of_getLast? latest)
          rw [if_pos inTime]
          simp only [not_lt.mpr inTime, decide_false, Bool.false_eq_true, false_iff, over_, true_and]
          push Not
          constructor
          · rintro ⟨when_, dispatched, today, early⟩
            have start : midnight now ≤ when_ :=
              (day_eq_iff (early.trans_lt (TimeOfDay.on_lt deadline now))).mp today
            exact (day_eq_iff (inTime.trans_lt (TimeOfDay.on_lt deadline now))).mpr
              (start.trans (le when_ dispatched))
          · exact fun today => ⟨last, member, today, inTime⟩
        · rw [if_neg inTime]
          simp [over_, not_le.mp inTime]

/-- **When the daily law holds.**  With readable deadlines and dispatches in order of
time, `check` returns, reports only jobs of the configuration, and reports exactly the
jobs that missed today's deadline if and only if the latest dispatch of each decides. -/
theorem check_daily_iff {repr : String → String} {jobs : List DeadlineJob}
    (readable : Readable repr jobs) {marks : List (String × DateTime)}
    (sorted : (marks.map Prod.snd).Pairwise (· ≤ ·)) (now : DateTime) :
    ∃ violations, (markAll marks { jobs }).check repr now = .ok violations ∧
      (∀ violation ∈ violations, ∃ job ∈ jobs,
        deadlineFor repr job = .ok (some violation.deadline) ∧ violation.jobName = job.name ∧
          violation.checkedAt = now) ∧
      ((∀ job ∈ jobs, ∀ deadline, deadlineFor repr job = .ok (some deadline) →
          (⟨job.name, deadline, now⟩ ∈ violations ↔ Missed marks now job.name deadline)) ↔
        ∀ job ∈ jobs, ∀ deadline, deadlineFor repr job = .ok (some deadline) →
          LatestDecides marks now job.name deadline) := by
  have returns := checkLoop_returns now (markAll marks { jobs }) readable
  obtain ⟨violations, returned, spec⟩ := returns
  refine ⟨violations, ?_, ?_, ?_⟩
  · rw [check, jobs_markAll]
    exact returned
  · intro violation member
    obtain ⟨job, inJobs, deadline, read, -, rfl⟩ := (spec violation).mp member
    exact ⟨job, inJobs, read, rfl, rfl⟩
  · refine forall_congr' fun job => forall_congr' fun inJobs => forall_congr' fun deadline =>
      forall_congr' fun read => ?_
    have reported : (⟨job.name, deadline, now⟩ : DeadlineViolation) ∈ violations ↔
        (markAll marks { jobs }).overdue now job.name deadline = true := by
      rw [spec]
      constructor
      · rintro ⟨other, -, deadline', -, late, same⟩
        obtain ⟨sameName, sameDeadline, -⟩ := DeadlineViolation.mk.inj same
        rw [sameName, sameDeadline]
        exact late
      · exact fun late => ⟨job, inJobs, deadline, read, late, rfl⟩
    rw [reported]
    exact overdue_iff_missed_iff (dispatched_markAll jobs marks job.name) sorted now deadline

/-- A job that must have started by nine. -/
def report : DeadlineJob where
  name := "report"
  command := "/usr/local/bin/report.sh"
  schedule := "0 8 * * *"
  deadline := some "09:00"

/-- Dispatched yesterday at eight and not today, `report` is not reported at ten; and
dispatched today at eight and again at ten, it is reported at eleven. -/
theorem check_breaks_daily :
    ((markAll [("report", seconds 28800)] { jobs := [report] }).check id (seconds 122400) = .ok [] ∧
      Missed [("report", seconds 28800)] (seconds 122400) "report" ⟨9, 0⟩) ∧
    ((markAll [("report", seconds 28800), ("report", seconds 36000)] { jobs := [report] }).check id
        (seconds 39600) = .ok [⟨"report", ⟨9, 0⟩, seconds 39600⟩] ∧
      ¬ Missed [("report", seconds 28800), ("report", seconds 36000)] (seconds 39600) "report"
        ⟨9, 0⟩) := by
  refine ⟨⟨by decide +kernel, by decide +kernel, ?_⟩, by decide +kernel, ?_⟩
  · intro when_ member
    simp only [List.mem_singleton, Prod.mk.injEq, true_and] at member
    subst member
    decide +kernel
  · rintro ⟨-, none_⟩
    exact none_ (seconds 28800) (by simp) (by decide +kernel) (by decide +kernel)

/-- Dispatched today at eight, `report` is in time. -/
theorem check_in_time : ∃ violations,
    (markAll [("report", seconds 28800)] { jobs := [report] }).check id (seconds 39600) =
      .ok violations ∧ ⟨"report", ⟨9, 0⟩, seconds 39600⟩ ∉ violations := by
  have readable : Readable id [report] := by
    intro job member
    rw [List.mem_singleton.mp member]
    exact ⟨some ⟨9, 0⟩, by decide +kernel⟩
  have sorted : ([("report", seconds 28800)].map Prod.snd).Pairwise (· ≤ ·) := by decide
  obtain ⟨violations, returned, -, agrees⟩ := check_daily_iff readable sorted (seconds 39600)
  refine ⟨violations, returned, fun reported => ?_⟩
  have missed := (agrees.mpr ?_ report List.mem_cons_self ⟨9, 0⟩ (by decide +kernel)).mp reported
  · exact missed.2 (seconds 28800) List.mem_cons_self (by decide +kernel) (by decide +kernel)
  · intro job member deadline read
    rw [List.mem_singleton.mp member] at read ⊢
    have nine : deadlineFor id report = .ok (some ⟨9, 0⟩) := by decide +kernel
    rw [nine] at read
    cases read
    have latest : (times report.name [("report", seconds 28800)]).getLast? =
        some (seconds 28800) := by
      decide
    refine .inr ?_
    rw [latest]
    dsimp only
    rw [if_pos (by decide +kernel)]
    decide +kernel

end DeadlineChecker

end Cronwatch.Jobs
