/-
# Jobs.TracingExecutor -- a trace of every run

`TracingExecutor.run` opens a context, starts and finishes a span for each part of the run,
and records the context at its end.  An inner executor that raises leaves no trace, with its
span still open, and neither does a store without a place.

`traced_iff` says which calls leave their trace.  `runsRecorded_iff` puts that beside the events of
the audited calls, of which none is ever closed.
-/
import Cronwatch.Jobs.Audit
import Cronwatch.Jobs.Tracing

namespace Cronwatch.Jobs

set_option autoImplicit false

open Cronwatch.Theory Cronwatch.Runtime

/-- `getattr(result, "returncode", None)`.  The field is called `exit_code`. -/
def ExecutionResult.returncode? (_ : ExecutionResult) : Option Int := none

namespace TraceContext

/-- `start_span(name, **meta)`, at a clock reading. -/
def startSpan (name : String) (now : DateTime) (details : List (String × String))
    (ctx : TraceContext) : TraceContext :=
  { ctx with
    spans := ctx.spans ++ [{ name, startedAt := now
                             metadata := details.foldl (fun d e => d.set e.1 e.2) .empty }] }

/-- `finish` of the span that was started last. -/
def finishSpan (now : DateTime) (details : List (String × String)) (ctx : TraceContext) :
    TraceContext :=
  { ctx with spans := ctx.spans.modify (ctx.spans.length - 1) (TraceSpan.finish now details) }

end TraceContext

/-- A call of `TracingExecutor.run`: the job, the new id, what the inner executor does, and
the readings of the clock, in their order. -/
structure TracedCall where
  jobName : String
  traceId : String
  outcome : Except PyException ExecutionResult
  clock : Nat → DateTime

namespace TracingExecutor

/-- The context of a call whose inner executor has returned. -/
def trace (call : TracedCall) (result : ExecutionResult) : TraceContext :=
  let ctx : TraceContext :=
    { jobName := call.jobName, traceId := call.traceId, startedAt := call.clock 0 }
  let ctx := (ctx.startSpan "setup" (call.clock 1) []).finishSpan (call.clock 2) []
  let ctx := (ctx.startSpan "execute" (call.clock 3) []).finishSpan (call.clock 4)
    [("success", if result.success then "True" else "False"),
      ("exit_code", match result.returncode? with
        | none => ""
        | some code => s!"{code}")]
  (ctx.startSpan "teardown" (call.clock 5) []).finishSpan (call.clock 6) []

def run (call : TracedCall) (store : TraceStore) :
    Except (PyException ⊕ IndexError) ExecutionResult × TraceStore :=
  match call.outcome with
  | .error e => (.error (.inl e), store)
  | .ok result =>
      match store.record (trace call result) with
      | (.error e, store) => (.error (.inr e), store)
      | (.ok (), store) => (.ok result, store)

/-- A store with this bound, after these contexts were recorded and these calls made. -/
def after (max : Int) (held : List TraceContext) (calls : List TracedCall) : TraceStore :=
  calls.foldl (fun store call => (run call store).2) (TraceStore.after max held)

/-- There is exactly one trace of the call, and it is one of its job. -/
structure LeavesOne (call : TracedCall) (store : TraceStore) : Prop where
  one : store.all.countP (fun t => t.traceId = call.traceId) = 1
  own : ∀ t ∈ store.all, t.traceId = call.traceId → t.jobName = call.jobName

/-- **Every run is traced**: right after each call there is one trace of it. -/
def Traced (max : Int) (held : List TraceContext) (calls : List TracedCall) : Prop :=
  ∀ earlier call later, calls = earlier ++ call :: later →
    LeavesOne call (run call (after max held earlier)).2

/-- No id is used twice, nor one that the store has seen. -/
structure Fresh (held : List TraceContext) (calls : List TracedCall) : Prop where
  distinct : (calls.map TracedCall.traceId).Nodup
  new : ∀ call ∈ calls, call.traceId ∉ held.map TraceContext.traceId

/-! ## What a call records -/

/-- What a call records. -/
def recorded (call : TracedCall) : List TraceContext :=
  match call.outcome with
  | .error _ => []
  | .ok result => [trace call result]

theorem trace_traceId (call : TracedCall) (result : ExecutionResult) :
    (trace call result).traceId = call.traceId := rfl

theorem trace_jobName (call : TracedCall) (result : ExecutionResult) :
    (trace call result).jobName = call.jobName := rfl

theorem run_records (call : TracedCall) (max : Int) (contexts : List TraceContext) :
    (run call (TraceStore.after max contexts)).2 =
      TraceStore.after max (contexts ++ recorded call) := by
  rw [run, recorded]
  cases call.outcome with
  | error e => rw [List.append_nil]
  | ok result =>
      dsimp only
      rw [TraceStore.after_append_single]
      rcases (TraceStore.after max contexts).record (trace call result) with ⟨e | ⟨⟩, store⟩
      · rfl
      · rfl

theorem after_records (max : Int) (held : List TraceContext) (calls : List TracedCall) :
    after max held calls = TraceStore.after max (held ++ calls.flatMap recorded) := by
  induction calls generalizing held with
  | nil => rw [List.flatMap_nil, List.append_nil]; rfl
  | cons call rest ih =>
      rw [after, List.foldl_cons, run_records, List.flatMap_cons, ← List.append_assoc]
      exact ih (held ++ recorded call)

/-- The ids of what calls record are theirs. -/
theorem traceId_of_recorded {calls : List TracedCall} {ctx : TraceContext}
    (member : ctx ∈ calls.flatMap recorded) : ctx.traceId ∈ calls.map TracedCall.traceId := by
  obtain ⟨call, among, records⟩ := List.mem_flatMap.mp member
  rw [recorded] at records
  split at records
  · cases records
  · rw [List.mem_singleton.mp records, trace_traceId]
    exact List.mem_map_of_mem among

/-- A call that comes has an id that nothing in the store was recorded with. -/
theorem Fresh.absent {held : List TraceContext} {earlier later : List TracedCall}
    {call : TracedCall} (fresh : Fresh held (earlier ++ call :: later)) :
    call.traceId ∉ (held ++ earlier.flatMap recorded).map TraceContext.traceId := by
  rw [List.map_append, List.mem_append]
  rintro (before | among)
  · exact fresh.new call (List.mem_append_right _ List.mem_cons_self) before
  · obtain ⟨ctx, member, same⟩ := List.mem_map.mp among
    have distinct := fresh.distinct
    rw [List.map_append, List.map_cons, List.nodup_append] at distinct
    exact distinct.2.2 _ (traceId_of_recorded member) _ List.mem_cons_self same

/-! ## Which runs are traced -/

/-- **One call** leaves its trace exactly when the inner executor returns and the store has a
place. -/
theorem leavesOne_iff {max : Int} {contexts : List TraceContext} {call : TracedCall}
    (absent : call.traceId ∉ contexts.map TraceContext.traceId) :
    LeavesOne call (run call (TraceStore.after max contexts)).2 ↔
      1 ≤ max ∧ ∃ result, call.outcome = .ok result := by
  rw [run_records]
  constructor
  · intro leaves
    have positive : 0 < (TraceStore.after max (contexts ++ recorded call)).all.countP
        fun t => t.traceId = call.traceId := by rw [leaves.one]; exact Nat.one_pos
    obtain ⟨t, member, same⟩ := List.countP_pos_iff.mp positive
    rw [decide_eq_true_eq] at same
    obtain ⟨listed, -⟩ := TraceStore.get_of_mem_all member
    rw [same] at listed
    constructor
    · have few := TraceStore.length_order_le max (contexts ++ recorded call)
      have some_ := List.length_pos_of_mem listed
      omega
    · have known := TraceStore.recorded_of_mem_order listed
      rw [List.map_append, List.mem_append] at known
      have here := known.resolve_left absent
      rw [recorded] at here
      cases outcome : call.outcome with
      | error e =>
          rw [outcome] at here
          cases here
      | ok result => exact ⟨result, rfl⟩
  · rintro ⟨place, result, returned⟩
    have records : recorded call = [trace call result] := by rw [recorded, returned]
    have new : (trace call result).traceId ∉ contexts.map TraceContext.traceId := absent
    obtain ⟨-, once, found⟩ := TraceStore.holds_new place new
    rw [records]
    refine ⟨once, fun t member same => ?_⟩
    obtain ⟨-, held⟩ := TraceStore.get_of_mem_all member
    rw [same] at held
    rw [trace_traceId, held] at found
    rw [Option.some.inj found, trace_jobName]

/-- **Which calls are traced**: those of inner executors that return, in a store that has a
place. -/
theorem traced_iff {max : Int} {held : List TraceContext} {calls : List TracedCall}
    (fresh : Fresh held calls) :
    Traced max held calls ↔
      calls = [] ∨ 1 ≤ max ∧ ∀ call ∈ calls, ∃ result, call.outcome = .ok result := by
  have each : ∀ earlier call later, calls = earlier ++ call :: later →
      (LeavesOne call (run call (after max held earlier)).2 ↔
        1 ≤ max ∧ ∃ result, call.outcome = .ok result) := by
    rintro earlier call later rfl
    rw [after_records]
    exact leavesOne_iff fresh.absent
  constructor
  · intro traced
    rcases calls with _ | ⟨first, rest⟩
    · exact .inl rfl
    · refine .inr ⟨((each [] first rest rfl).mp (traced [] first rest rfl)).1, fun call member => ?_⟩
      obtain ⟨earlier, later, split⟩ := List.append_of_mem member
      exact ((each earlier call later split).mp (traced earlier call later split)).2
  · rintro (rfl | ⟨place, returns⟩) earlier call later split
    · simp at split
    · have member : call ∈ calls := split ▸ List.mem_append_right _ List.mem_cons_self
      exact (each earlier call later split).mpr ⟨place, returns call member⟩

/-- **The records of all runs.**  The audited calls are all closed and the traced calls all
traced exactly when no call is audited and, where calls are traced, their inner executors
return and the store has a place. -/
theorem runsRecorded_iff {isoformat : DateTime → String} {log : AuditLog} {before : List AuditEvent}
    (readable : log.readAll = .ok before) (audited : List AuditedCall) {max : Int}
    {held : List TraceContext} {traced : List TracedCall} (fresh : Fresh held traced) :
    (AuditingExecutor.Closed ExecutionResult.duration isoformat log audited ∧
        Traced max held traced) ↔
      audited = [] ∧
        (traced = [] ∨ 1 ≤ max ∧ ∀ call ∈ traced, ∃ result, call.outcome = .ok result) := by
  rw [AuditingExecutor.closed_asWritten_iff readable, traced_iff fresh]

def noon (_ : DateTime) : String := "2024-06-01T12:00:00+00:00"

/-- A report that was made, and one that was not. -/
def made : ExecutionResult where
  jobName := "report"
  exitCode := 0
  stdout := ""
  stderr := ""
  durationSeconds := 60
  startedAt := 0
  finishedAt := 60

def notMade : ExecutionResult := { made with exitCode := 1 }

def tracedReport (traceId : String) (outcome : Except PyException ExecutionResult) : TracedCall where
  jobName := "report"
  traceId := traceId
  outcome := outcome
  clock n := seconds n

def auditedReport (outcome : Except PyException ExecutionResult) : AuditedCall where
  jobName := "report"
  outcome := outcome
  startedAt := 0
  endedAt := seconds 60

/-- Two traced reports, beside a log that only has an alert. -/
theorem closed_reports :
    let alert := AuditEvent.now noon 0 "alert_sent" "report" (some "recipient=ops@example.com")
    let log := (({} : AuditLog).record alert).2
    let reports := [tracedReport "1a" (.ok made), tracedReport "2b" (.ok notMade)]
    AuditingExecutor.Closed ExecutionResult.duration noon log [] ∧
      Traced 200 [TraceStore.traced "backup" "0c"] reports := by
  intro alert log reports
  have readable : log.readAll = .ok [alert] := rfl
  have fresh : Fresh [TraceStore.traced "backup" "0c"] reports := ⟨by decide, by decide⟩
  refine (runsRecorded_iff readable [] fresh).mpr ⟨rfl, .inr ⟨by decide, ?_⟩⟩
  intro report member
  rcases List.mem_cons.mp member with rfl | other
  · exact ⟨made, rfl⟩
  · rw [List.mem_singleton.mp other]
    exact ⟨notMade, rfl⟩

/-- **A report that was made** is answered with an `AttributeError` and stays open in the
log; and an inner executor that raises leaves no trace. -/
theorem report_stays_open :
    (AuditingExecutor.run noon (auditedReport (.ok made)) {}).1 =
        .error (.attributeError "'ExecutionResult' object has no attribute 'duration'") ∧
      ((AuditingExecutor.run noon (auditedReport (.ok made)) {}).2.readAll.map fun events =>
          events.map fun e => (e.event, e.jobName)) =
        .ok [(.str "job_started", .str "report")] ∧
      (run (tracedReport "1a" (.error (.foreign "OSError"))) {}).2.all = [] ∧
      ¬ (AuditingExecutor.Closed ExecutionResult.duration noon {} [auditedReport (.ok made)] ∧
        Traced 200 [] [tracedReport "1a" (.error (.foreign "OSError"))]) := by
  refine ⟨rfl, rfl, rfl, fun both => ?_⟩
  have readable : ({} : AuditLog).readAll = .ok [] := rfl
  have none_ := (AuditingExecutor.closed_asWritten_iff readable _).mp both.1
  cases none_

end TracingExecutor

end Cronwatch.Jobs
