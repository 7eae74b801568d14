/-
# Alerts.SLA -- one alert for each time a job breaks its SLA

`SLAAlerter.check` evaluates the named jobs in turn.  A job that is found unhealthy is
alerted unless it has been since it was last found healthy.  The evaluation and the
alerter are code handed in: they may answer by everything that happened before, and
raise, which ends the check.

`alertedFor` is what the log says about a job: an alert has been sent for it, and it has
not been found healthy since.  The flag that the alerter keeps is exactly that
(`Tracks`), in whatever way the checks end.  So two alerts for one job have a healthy
evaluation between them, and after a check that returns every job whose last evaluation
was unhealthy is alerted (`sla_alerts`).  A job named twice in one check may be healthy
again the second time; of its first evaluation the check then keeps nothing.
-/
import Cronwatch.Alerts.Message
import Cronwatch.Runtime.Clock
import Cronwatch.Theory.Dict
import Cronwatch.Theory.Flag
import Cronwatch.Theory.Loop
import Cronwatch.Theory.Splits

namespace Cronwatch.Alerts

set_option autoImplicit false

open Cronwatch.Theory Cronwatch.Theory.Loop Cronwatch.Runtime

structure SLAStatus where
  jobName : String
  windowHours : Int
  totalRuns : Nat
  successfulRuns : Nat
  successRate : ℚ
  avgDurationSeconds : ℚ
  meetsSuccessRate : Bool
  meetsDuration : Bool
deriving DecidableEq

def SLAStatus.healthy (status : SLAStatus) : Bool := status.meetsSuccessRate && status.meetsDuration

namespace SLAAlerter

/-- What a check does: it evaluates a job, or sends an alert for it. -/
inductive Entry where
  | evaluated (name : String) (healthy : Bool)
  | alerted (name : String) (message : Message) (sent : Bool)
deriving DecidableEq

/-- The code handed in.  Every answer may depend on what happened before. -/
structure Env where
  statusFor : List Entry → String → Except PyException SLAStatus
  send : List Entry → Message → Except PyException Unit

end SLAAlerter

structure SLAAlerter where
  alerted : Dict String Bool := .empty
  log : List SLAAlerter.Entry := []

namespace SLAAlerter

def reasons (status : SLAStatus) : List String :=
  (if status.meetsSuccessRate then []
    else [s!"success rate {fixed0 (100 * status.successRate)}% below threshold"]) ++
  (if status.meetsDuration then []
    else [s!"avg duration {fixed1 status.avgDurationSeconds}s exceeds limit"])

def message (status : SLAStatus) : Message where
  subject := s!"[cronwatch] SLA breach: {status.jobName}"
  body :=
    s!"Job '{status.jobName}' has breached its SLA over the last {status.windowHours}h.\n\n" ++
    s!"  Runs      : {status.totalRuns}\n" ++
    s!"  Successes : {status.successfulRuns}\n" ++
    "  Reason(s) : " ++ "; ".intercalate (reasons status) ++ "\n"

def logged (e : Entry) (a : SLAAlerter) : SLAAlerter := { a with log := a.log ++ [e] }

def mark (name : String) (value : Bool) (a : SLAAlerter) : SLAAlerter :=
  { a with alerted := a.alerted.set name value }

/-- `self._alerted.get(name, False)`. -/
def wasAlerted (name : String) (a : SLAAlerter) : Bool := (a.alerted.get? name).getD false

/-- The body of the loop for one name, with the violation it adds. -/
def evaluate (env : Env) (name : String) (a : SLAAlerter) :
    Except PyException (Option SLAStatus) × SLAAlerter :=
  match env.statusFor a.log name with
  | .error e => (.error e, a)
  | .ok status =>
      let found := a.logged (.evaluated name status.healthy)
      if status.healthy then (.ok none, found.mark name false)
      else if a.wasAlerted name then (.ok (some status), found)
      else
        match env.send found.log (message status) with
        | .error e => (.error e, found.logged (.alerted name (message status) false))
        | .ok () =>
            (.ok (some status), (found.logged (.alerted name (message status) true)).mark name true)

def check (env : Env) (jobNames : List String) (a : SLAAlerter) :
    Except PyException (List SLAStatus) × SLAAlerter :=
  loop (evaluate env) Option.toList jobNames a

/-- Any number of checks; what one of them raises does not stop the next. -/
def checks (env : Env) (calls : List (List String)) (a : SLAAlerter) : SLAAlerter :=
  calls.foldl (fun a jobNames => (a.check env jobNames).2) a

/-! ## What the log says of a job -/

/-- An alert for the job was sent. -/
def Entry.sentFor (name : String) : Entry → Bool
  | .alerted name' _ sent => name' = name && sent
  | .evaluated _ _ => false

/-- The job was found healthy. -/
def Entry.recovered (name : String) : Entry → Bool
  | .evaluated name' healthy => name' = name && healthy
  | .alerted _ _ _ => false

/-- An alert has been sent for the job, and it has not been found healthy since. -/
def alertedFor (name : String) (log : List Entry) : Bool :=
  flag (Entry.sentFor name) (Entry.recovered name) log

/-- The answer of an evaluation of the job. -/
def Entry.answer? (name : String) : Entry → Option Bool
  | .evaluated name' healthy => if name' = name then some healthy else none
  | .alerted _ _ _ => none

/-- How the job was found last. -/
def lastFound (name : String) (log : List Entry) : Option Bool :=
  (log.filterMap (Entry.answer? name)).getLast?

/-- The entry is an alert for the job. -/
def Entry.alertee? : Entry → Option String
  | .alerted name _ _ => some name
  | .evaluated _ _ => none

/-- The flags are what the log says, and every alert was for a job that was not alerted. -/
structure Tracks (a : SLAAlerter) : Prop where
  flags : ∀ name, a.wasAlerted name = alertedFor name a.log
  edges : ∀ before e after, a.log = before ++ e :: after →
    ∀ name ∈ e.alertee?, alertedFor name before = false

theorem wasAlerted_mark (name : String) (value : Bool) (a : SLAAlerter) (name' : String) :
    (a.mark name value).wasAlerted name' = if name' = name then value else a.wasAlerted name' := by
  rw [wasAlerted, mark, Dict.get?_set]
  split <;> rfl

theorem lastFound_append (name : String) (log log' : List Entry) :
    lastFound name (log ++ log') = (lastFound name log').or (lastFound name log) := by
  rw [lastFound, List.filterMap_append, List.getLast?_append]
  rfl

theorem alertedFor_append_single (name : String) (log : List Entry) (e : Entry) :
    alertedFor name (log ++ [e]) =
      flagAfter (Entry.sentFor name) (Entry.recovered name) (alertedFor name log) e :=
  flag_append_single _ _ log e

/-- One entry more, with the flags moved as the entry says. -/
theorem Tracks.next {a a' : SLAAlerter} (tracks : a.Tracks) {e : Entry}
    (log : a'.log = a.log ++ [e])
    (flags : ∀ name, a'.wasAlerted name =
      flagAfter (Entry.sentFor name) (Entry.recovered name) (a.wasAlerted name) e)
    (edge : ∀ name ∈ e.alertee?, a.wasAlerted name = false) : a'.Tracks where
  flags := fun name => by rw [log, alertedFor_append_single, ← tracks.flags, flags]
  edges := by
    rw [log]
    refine (forall_splits_append_single _ _).mpr ⟨tracks.edges, fun name member => ?_⟩
    rw [← tracks.flags]
    exact edge name member

theorem Tracks.unhealthy {a : SLAAlerter} (tracks : a.Tracks) (name : String) :
    (a.logged (.evaluated name false)).Tracks := by
  refine tracks.next rfl (fun name' => ?_) (by rintro name' ⟨⟩)
  simp [flagAfter, Entry.sentFor, Entry.recovered, wasAlerted, logged]

theorem Tracks.healthy {a : SLAAlerter} (tracks : a.Tracks) (name : String) :
    ((a.logged (.evaluated name true)).mark name false).Tracks := by
  refine tracks.next rfl (fun name' => ?_) (by rintro name' ⟨⟩)
  rw [wasAlerted_mark]
  simp [flagAfter, Entry.sentFor, Entry.recovered, eq_comm, wasAlerted, logged]

theorem Tracks.failed {a : SLAAlerter} (tracks : a.Tracks) {name : String}
    (unalerted : a.wasAlerted name = false) (message : Message) :
    (a.logged (.alerted name message false)).Tracks := by
  refine tracks.next rfl (fun name' => ?_) ?_
  · simp [flagAfter, Entry.sentFor, Entry.recovered, wasAlerted, logged]
  · rintro name' ⟨⟩
    exact unalerted

theorem Tracks.sent {a : SLAAlerter} (tracks : a.Tracks) {name : String}
    (unalerted : a.wasAlerted name = false) (message : Message) :
    ((a.logged (.alerted name message true)).mark name true).Tracks := by
  refine tracks.next rfl (fun name' => ?_) ?_
  · rw [wasAlerted_mark]
    simp [flagAfter, Entry.sentFor, Entry.recovered, eq_comm, wasAlerted, logged]
  · rintro name' ⟨⟩
    exact unalerted

/-- **One name.**  Its turn keeps the flags true to the log, however it ends; when it
returns, it has found the job healthy or left it alerted. -/
theorem evaluate_spec (env : Env) (name : String) {a : SLAAlerter} (tracks : a.Tracks) :
    (a.evaluate env name).2.Tracks ∧ ∃ entries,
      (a.evaluate env name).2.log = a.log ++ entries ∧
        ∀ given, (a.evaluate env name).1 = .ok given → ∃ healthy,
          (∀ name', lastFound name' entries = if name = name' then some healthy else none) ∧
            (healthy = false → (a.evaluate env name).2.wasAlerted name = true) := by
  unfold evaluate
  cases env.statusFor a.log name with
  | error e => exact ⟨tracks, [], by simp, fun given impossible => by cases impossible⟩
  | ok status =>
      dsimp only
      cases found : status.healthy with
      | true =>
          refine ⟨tracks.healthy name, [.evaluated name true], rfl, fun given _ =>
            ⟨true, fun name' => ?_, fun impossible => by cases impossible⟩⟩
          by_cases same : name = name' <;> simp [lastFound, Entry.answer?, same]
      | false =>
          have unhealthy := tracks.unhealthy name
          rw [if_neg Bool.false_ne_true]
          cases before : a.wasAlerted name with
          | true =>
              rw [if_pos rfl]
              refine ⟨unhealthy, [.evaluated name false], rfl, fun given _ =>
                ⟨false, fun name' => ?_, fun _ => before⟩⟩
              by_cases same : name = name' <;> simp [lastFound, Entry.answer?, same]
          | false =>
              rw [if_neg Bool.false_ne_true]
              cases env.send (a.logged (.evaluated name false)).log (message status) with
              | error e =>
                  refine ⟨unhealthy.failed before (message status),
                    [.evaluated name false, .alerted name (message status) false], ?_,
                    fun given impossible => by cases impossible⟩
                  simp [logged]
              | ok done =>
                  refine ⟨unhealthy.sent before (message status),
                    [.evaluated name false, .alerted name (message status) true], ?_,
                    fun given _ => ⟨false, fun name' => ?_, fun _ => ?_⟩⟩
                  · simp [logged, mark]
                  · by_cases same : name = name' <;>
                      simp [lastFound, List.filterMap_cons, Entry.answer?, same]
                  · rw [wasAlerted_mark, if_pos rfl]

/-- Where a job is not evaluated, it is not found healthy. -/
theorem not_recovered_of_unfound {name : String} {log : List Entry}
    (unfound : lastFound name log = none) : ∀ e ∈ log, e.recovered name = false := by
  intro e member
  have none_ := List.getLast?_eq_none_iff.mp unfound
  rw [List.filterMap_eq_nil_iff] at none_
  have answer := none_ e member
  cases e with
  | alerted name' message sent => rfl
  | evaluated name' healthy =>
      by_cases same : name' = name
      · simp [Entry.answer?, same] at answer
      · simp [Entry.recovered, same]

theorem Tracks.check {a : SLAAlerter} (tracks : a.Tracks) (env : Env) (jobNames : List String) :
    (a.check env jobNames).2.Tracks :=
  loop_invariant (fun name _ _ kept => (evaluate_spec env name kept).1) tracks

theorem Tracks.checks (env : Env) (calls : List (List String)) {a : SLAAlerter}
    (tracks : a.Tracks) : (a.checks env calls).Tracks := by
  induction calls generalizing a with
  | nil => exact tracks
  | cons jobNames rest ih => exact ih (tracks.check env jobNames)

theorem tracks_new : Tracks {} where
  flags := fun _ => rfl
  edges := by
    intro before e after split
    simp at split

/-- **A check that returns** leaves every job alerted that it found unhealthy last. -/
theorem check_returns (env : Env) {jobNames : List String} {a : SLAAlerter} (tracks : a.Tracks)
    {violations : List SLAStatus} (returned : (a.check env jobNames).1 = .ok violations) :
    ∃ entries, (a.check env jobNames).2.log = a.log ++ entries ∧
      ∀ name, lastFound name entries = some false →
        alertedFor name (a.check env jobNames).2.log = true := by
  induction jobNames generalizing a violations with
  | nil => exact ⟨[], by simp [SLAAlerter.check, loop], fun name impossible => by cases impossible⟩
  | cons first rest ih =>
      obtain ⟨kept, entries, added, ends⟩ := evaluate_spec env first tracks
      rw [SLAAlerter.check] at returned ⊢
      rcases step : a.evaluate env first with ⟨e | given, a'⟩
      · exact absurd ⟨violations, returned⟩ (not_loop_cons_returns step)
      · rw [step] at kept added ends
        obtain ⟨later, returned'⟩ := (loop_cons_returns step).mp ⟨violations, returned⟩
        obtain ⟨healthy, found, left⟩ := ends given rfl
        obtain ⟨entries', added', alerted⟩ := ih kept returned'
        rw [loop_cons_of_ok step]
        refine ⟨entries ++ entries', ?_, fun name unhealthy => ?_⟩
        · exact added'.trans (by rw [added, List.append_assoc])
        · rw [lastFound_append, found] at unhealthy
          cases last : lastFound name entries' with
          | some answer =>
              rw [last, Option.some_or] at unhealthy
              exact alerted name (last.trans unhealthy)
          | none =>
              -- not evaluated again, so it is alerted still
              rw [last, Option.none_or] at unhealthy
              split at unhealthy
              · rename_i same
                subst same
                have up := left (Option.some.inj unhealthy)
                rw [kept.flags] at up
                refine (congrArg (alertedFor first) added').trans ?_
                exact flag_append_of_up up (not_recovered_of_unfound last)
              · cases unhealthy

/-- **Alerts are edge-triggered.**  In every run of checks two alerts that were sent for
one job have a healthy evaluation of it between them; and after a check that returns,
every job whose last evaluation in the check found it unhealthy has had an alert sent
since its last healthy evaluation. -/
theorem sla_alerts (env : Env) (calls : List (List String)) (jobNames : List String) :
    let a := checks env calls {}
    (∀ before name message between message' after, a.log =
        before ++ .alerted name message true :: (between ++ .alerted name message' true :: after) →
      .evaluated name true ∈ between) ∧
    ∀ violations, (a.check env jobNames).1 = .ok violations →
      ∃ entries, (a.check env jobNames).2.log = a.log ++ entries ∧
        ∀ name, lastFound name entries = some false →
          ∃ before message after, (a.check env jobNames).2.log =
            before ++ .alerted name message true :: after ∧ .evaluated name true ∉ after := by
  have tracks := tracks_new.checks env calls
  refine ⟨fun before name message between message' after split => ?_, fun violations returned => ?_⟩
  · have regrouped : (checks env calls {}).log =
        (before ++ .alerted name message true :: between) ++ .alerted name message' true :: after := by
      rw [split, List.append_assoc, List.cons_append]
    have down := tracks.edges _ _ after regrouped name rfl
    obtain ⟨e, member, lowered⟩ := exists_lowering (by simp [Entry.sentFor]) down
    cases e with
    | alerted name' message sent => cases lowered
    | evaluated name' healthy =>
        obtain ⟨rfl, rfl⟩ : name' = name ∧ healthy = true := by
          simpa [Entry.recovered] using lowered
        exact member
  · obtain ⟨entries, added, alerted⟩ := check_returns env tracks returned
    refine ⟨entries, added, fun name unhealthy => ?_⟩
    obtain ⟨before, e, after, split, raised, kept⟩ := (flag_iff _).mp (alerted name unhealthy)
    cases e with
    | evaluated name' healthy => cases raised
    | alerted name' message sent =>
        obtain ⟨rfl, rfl⟩ : name' = name ∧ sent = true := by
          simpa [Entry.sentFor] using raised
        refine ⟨before, message, after, split, fun healthy => ?_⟩
        have lowered := kept _ healthy
        simp [Entry.recovered] at lowered

/-- A status of `etl`. -/
def etlStatus (healthy : Bool) : SLAStatus where
  jobName := "etl"
  windowHours := 24
  totalRuns := if healthy then 0 else 1
  successfulRuns := 0
  successRate := if healthy then 1 else 0
  avgDurationSeconds := 0
  meetsSuccessRate := healthy
  meetsDuration := true

/-- The only run of `etl`, a failed one, leaves the window between two evaluations. -/
def expiring : Env where
  statusFor := fun log _ => .ok (etlStatus (log ≠ []))
  send := fun _ _ => .ok ()

/-- A check that names `etl` twice finds it unhealthy and then healthy, and returns; the
alert it sent comes before the last healthy evaluation. -/
theorem recovered_within_check :
    (check expiring ["etl", "etl"] {}).1 = .ok [etlStatus false] ∧
      (check expiring ["etl", "etl"] {}).2.log = [.evaluated "etl" false,
        .alerted "etl" (message (etlStatus false)) true, .evaluated "etl" true] ∧
      ¬ ∃ before message after, (check expiring ["etl", "etl"] {}).2.log =
        before ++ .alerted "etl" message true :: after ∧ .evaluated "etl" true ∉ after := by
  have log : (check expiring ["etl", "etl"] {}).2.log = [.evaluated "etl" false,
      .alerted "etl" (message (etlStatus false)) true, .evaluated "etl" true] := by
    decide +kernel
  refine ⟨by decide +kernel, log, ?_⟩
  rintro ⟨before, message', after, split, none_⟩
  rw [log] at split
  rcases before with _ | ⟨first, _ | ⟨second, _ | ⟨third, rest⟩⟩⟩
  · cases split
  · cases split
    exact none_ List.mem_cons_self
  · cases split
  · simp at split

end SLAAlerter

end Cronwatch.Alerts
