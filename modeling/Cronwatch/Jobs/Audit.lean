/-
# Jobs.Audit -- the events of all runs, and how a run is closed in them

`AuditLog` appends an event to its file as a JSON object on a line of its own, and reads an
event from every line that is not empty.  An event that was made by `now` is read back as it
was (`readAll_record`).

`AuditingExecutor.run` records a start, calls the function, and records how it ended.  A
function that raises is followed by no record, and neither is one that returns: the detail
of the last record is made of `duration`, which no result has.  The attribute is a parameter
of `runWith`; `closed_iff` is about any of them, `closed_asWritten_iff` about the one of the
code.
-/
import Cronwatch.Jobs.Execution
import Cronwatch.Runtime.Clock
import Cronwatch.Runtime.Json

namespace Cronwatch.Jobs

set_option autoImplicit false

open Cronwatch.Theory Cronwatch.Runtime
open Cronwatch.Theory.Json (Token Value)

/-- `AuditEvent(**data)` checks no types, so the fields may be values of any type. -/
structure AuditEvent where
  timestamp : PyValue
  event : PyValue
  jobName : PyValue
  detail : PyValue := .none

namespace AuditEvent

/-- `now`, at a clock reading. -/
def now (isoformat : DateTime → String) (clock : DateTime) (event jobName : String)
    (detail : Option String := none) : AuditEvent where
  timestamp := .str (isoformat clock)
  event := .str event
  jobName := .str jobName
  detail :=
    match detail with
    | none => .none
    | some text => .str text

/-- `asdict(event)`. -/
def asdict (event : AuditEvent) : PyValue :=
  .dict [(.str "timestamp", event.timestamp), (.str "event", event.event),
    (.str "job_name", event.jobName), (.str "detail", event.detail)]

/-- `__init__` of the dataclass. -/
def signature : Signature where
  function := "AuditEvent.__init__"
  required := ["timestamp", "event", "job_name"]
  optional := ["detail"]

/-- A field that is given, and `None` for `detail` when it is not. -/
def field (entries : List (Key × PyValue)) (name : String) : PyValue :=
  (entries.lookup (.str name)).getD .none

/-- `AuditEvent(**data)`. -/
def init : PyValue → Except PyException AuditEvent
  | .dict entries => do
      let keywords ← entries.mapM fun e => e.1.keyword
      signature.bind keywords
      return { timestamp := field entries "timestamp", event := field entries "event",
               jobName := field entries "job_name", detail := field entries "detail" }
  | data =>
      .error (.typeError ("cronwatch.audit.AuditEvent() argument after ** must be a mapping, " ++
        s!"not {data.typeName}"))

/-- All fields are of the types that JSON has, through and through. -/
structure Native (e : AuditEvent) : Prop where
  timestamp : e.timestamp.Native
  event : e.event.Native
  jobName : e.jobName.Native
  detail : e.detail.Native

theorem init_asdict (event : AuditEvent) : init event.asdict = .ok event := by
  rfl

theorem native_asdict {event : AuditEvent} (native : event.Native) : event.asdict.Native := by
  refine ⟨⟨⟨_, rfl⟩, native.timestamp, ⟨_, rfl⟩, native.event, ⟨_, rfl⟩, native.jobName,
    ⟨_, rfl⟩, native.detail, trivial⟩, ?_⟩
  simp

theorem native_now (isoformat : DateTime → String) (clock : DateTime) (event jobName : String)
    (detail : Option String) : (now isoformat clock event jobName detail).Native := by
  cases detail with
  | none => exact ⟨trivial, trivial, trivial, trivial⟩
  | some text => exact ⟨trivial, trivial, trivial, trivial⟩

end AuditEvent

/-- The lines of the file; there are none where there is no file. -/
structure AuditLog where
  lines : List (List (Token Number)) := []

namespace AuditLog

def record (event : AuditEvent) (log : AuditLog) : Except PyException Unit × AuditLog :=
  match event.asdict.dump.error with
  | some e => (.error e, log)
  | none => (.ok (), { lines := log.lines ++ [event.asdict.dump.tokens] })

/-- `AuditEvent(**json.loads(raw))`. -/
def readLine (raw : List (Token Number)) : Except PyException AuditEvent :=
  match Json.parse raw with
  | none => .error jsonDecodeError
  | some data => AuditEvent.init (ofJson data)

def readAll (log : AuditLog) : Except PyException (List AuditEvent) :=
  (log.lines.filter fun raw => !raw.isEmpty).mapM readLine

/-- `e.job_name == job_name`. -/
def isOf (jobName : String) (e : AuditEvent) : Bool :=
  match e.jobName with
  | .str name => name = jobName
  | _ => false

def readForJob (jobName : String) (log : AuditLog) : Except PyException (List AuditEvent) := do
  return (← log.readAll).filter (isOf jobName)

/-- The line of a native event is read back as the event. -/
theorem readLine_dump {event : AuditEvent} (native : event.Native) :
    event.asdict.dump.error = none ∧ event.asdict.dump.tokens ≠ [] ∧
      readLine event.asdict.dump.tokens = .ok event := by
  obtain ⟨written, j, parsed, value⟩ := native_roundTrip (AuditEvent.native_asdict native)
  refine ⟨written, ?_, ?_⟩
  · intro empty
    rw [empty] at parsed
    cases parsed
  · rw [readLine, parsed]
    dsimp only
    rw [value, AuditEvent.init_asdict]

/-- **A recorded event** is the last one that is read. -/
theorem readAll_record {event : AuditEvent} (native : event.Native) {log : AuditLog}
    {before : List AuditEvent} (readable : log.readAll = .ok before) :
    (log.record event).1 = .ok () ∧ (log.record event).2.readAll = .ok (before ++ [event]) := by
  obtain ⟨encoded, nonempty, read⟩ := readLine_dump native
  rw [record, encoded]
  refine ⟨rfl, ?_⟩
  rw [readAll] at readable ⊢
  rw [List.filter_append, List.filter_cons_of_pos (by simpa using nonempty), List.filter_nil,
    List.mapM_append, readable]
  show (do
    let last ← List.mapM readLine [event.asdict.dump.tokens]
    pure (before ++ last)) = _
  rw [List.mapM_cons, read]
  rfl

end AuditLog

/-! ## Runs -/

/-- A call of `AuditingExecutor.run`: the job, what the wrapped function does, and the clock
before and after it. -/
structure AuditedCall where
  jobName : String
  outcome : Except PyException ExecutionResult
  startedAt : DateTime
  endedAt : DateTime

namespace AuditingExecutor

variable (duration : ExecutionResult → Except PyException ℚ) (isoformat : DateTime → String)

/-- The result and the event of the end, or what is raised instead. -/
def closing (call : AuditedCall) : Except PyException (ExecutionResult × AuditEvent) := do
  let result ← call.outcome
  let seconds ← duration result
  let detail := s!"exit_code={result.exitCode} duration={fixed3 seconds}s"
  let eventName := if result.success then "job_succeeded" else "job_failed"
  return (result, .now isoformat call.endedAt eventName call.jobName (some detail))

/-- `run`, with the attribute `duration` of a result. -/
def runWith (call : AuditedCall) (log : AuditLog) :
    Except PyException ExecutionResult × AuditLog :=
  match log.record (.now isoformat call.startedAt "job_started" call.jobName) with
  | (.error e, log) => (.error e, log)
  | (.ok (), log) =>
      match closing duration isoformat call with
      | .error e => (.error e, log)
      | .ok (result, event) =>
          match log.record event with
          | (.error e, log) => (.error e, log)
          | (.ok (), log) => (.ok result, log)

def run : AuditedCall → AuditLog → Except PyException ExecutionResult × AuditLog :=
  runWith ExecutionResult.duration isoformat

/-- The log after these calls. -/
def after (calls : List AuditedCall) (log : AuditLog) : AuditLog :=
  calls.foldl (fun log call => (runWith duration isoformat call log).2) log

/-- The events of one call. -/
def recorded (call : AuditedCall) : List AuditEvent :=
  .now isoformat call.startedAt "job_started" call.jobName ::
    match closing duration isoformat call with
    | .error _ => []
    | .ok (_, event) => [event]

end AuditingExecutor

namespace AuditedCall

def succeeded (call : AuditedCall) : Bool :=
  match call.outcome with
  | .ok result => result.success
  | .error _ => false

/-- The events that there should be of the call, by kind and job. -/
def closed (call : AuditedCall) : List (PyValue × PyValue) :=
  [(.str "job_started", .str call.jobName),
    (.str (if call.succeeded then "job_succeeded" else "job_failed"), .str call.jobName)]

end AuditedCall

namespace AuditingExecutor

/-- **Every run is closed**: the calls add to the log, for each of them in turn, a start and
an end that agrees with the outcome, and what the wrapped function returns is returned. -/
structure Closed (duration : ExecutionResult → Except PyException ℚ)
    (isoformat : DateTime → String) (log : AuditLog) (calls : List AuditedCall) : Prop where
  events : ∃ before added, log.readAll = .ok before ∧
    (after duration isoformat calls log).readAll = .ok (before ++ added) ∧
      added.map (fun e => (e.event, e.jobName)) = calls.flatMap AuditedCall.closed
  returned : ∀ earlier call later, calls = earlier ++ call :: later →
    ∀ result, call.outcome = .ok result →
      (runWith duration isoformat call (after duration isoformat earlier log)).1 = .ok result

variable {duration : ExecutionResult → Except PyException ℚ} {isoformat : DateTime → String}
  {log : AuditLog} {before : List AuditEvent}

/-- The event that closes a run. -/
theorem event_of_closing {call : AuditedCall} {result : ExecutionResult} {event : AuditEvent}
    (closed : closing duration isoformat call = .ok (result, event)) :
    call.outcome = .ok result ∧ ∃ detail, event = .now isoformat call.endedAt
      (if result.success then "job_succeeded" else "job_failed") call.jobName (some detail) := by
  rw [closing] at closed
  obtain ⟨_, returned, closed⟩ := returned_of_bind closed
  obtain ⟨_, -, closed⟩ := returned_of_bind closed
  cases closed
  exact ⟨returned, _, rfl⟩

/-- **One call**: what it answers, and the events that it adds. -/
theorem runWith_records (call : AuditedCall) (readable : log.readAll = .ok before) :
    (runWith duration isoformat call log).1 = (closing duration isoformat call).map Prod.fst ∧
      (runWith duration isoformat call log).2.readAll =
        .ok (before ++ recorded duration isoformat call) := by
  rw [runWith, recorded]
  have native := AuditEvent.native_now isoformat call.startedAt "job_started" call.jobName none
  obtain ⟨started, reads⟩ := AuditLog.readAll_record native readable
  rcases first : log.record (.now isoformat call.startedAt "job_started" call.jobName)
    with ⟨answer, log'⟩
  rw [first] at started reads
  dsimp only at started reads
  subst started
  dsimp only
  cases closes : closing duration isoformat call with
  | error e => exact ⟨rfl, reads⟩
  | ok closed =>
      obtain ⟨result, event⟩ := closed
      have native' : event.Native := by
        obtain ⟨-, detail, rfl⟩ := event_of_closing closes
        exact AuditEvent.native_now ..
      obtain ⟨ended, both⟩ := AuditLog.readAll_record native' reads
      rcases second : log'.record event with ⟨answer, log''⟩
      rw [second] at ended both
      dsimp only at ended both
      subst ended
      dsimp only
      rw [second]
      refine ⟨rfl, ?_⟩
      dsimp only
      rw [both, List.append_assoc, List.singleton_append]

theorem after_records (calls : List AuditedCall) (readable : log.readAll = .ok before) :
    (after duration isoformat calls log).readAll =
      .ok (before ++ calls.flatMap (recorded duration isoformat)) := by
  induction calls generalizing log before with
  | nil =>
      rw [List.flatMap_nil, List.append_nil]
      exact readable
  | cons call rest ih =>
      rw [List.flatMap_cons, ← List.append_assoc]
      exact ih (runWith_records call readable).2

/-- All events of a call are of its job. -/
theorem isOf_recorded (duration : ExecutionResult → Except PyException ℚ)
    (isoformat : DateTime → String) (call : AuditedCall) (jobName : String) :
    ∀ e ∈ recorded duration isoformat call,
      AuditLog.isOf jobName e = decide (call.jobName = jobName) := by
  intro e member
  rw [recorded, List.mem_cons] at member
  rcases member with rfl | closes
  · rfl
  · split at closes
    · cases closes
    · rename_i result event closed
      obtain ⟨-, detail, made⟩ := event_of_closing closed
      rw [List.mem_singleton.mp closes, made]
      rfl

/-- The events of a job are those of its calls. -/
theorem readForJob_after (calls : List AuditedCall) (readable : log.readAll = .ok before)
    (jobName : String) :
    (after duration isoformat calls log).readForJob jobName =
      .ok (before.filter (AuditLog.isOf jobName) ++
        (calls.filter fun call => call.jobName = jobName).flatMap (recorded duration isoformat)) := by
  rw [AuditLog.readForJob, after_records calls readable]
  refine congrArg Except.ok ?_
  rw [List.filter_append, List.append_cancel_left_eq]
  induction calls with
  | nil => rfl
  | cons call rest ih =>
      have own := isOf_recorded duration isoformat call jobName
      rw [List.flatMap_cons, List.filter_append, ih, List.filter_cons]
      by_cases here : call.jobName = jobName
      · have all : (recorded duration isoformat call).filter (AuditLog.isOf jobName) =
            recorded duration isoformat call := by
          refine List.filter_eq_self.mpr fun e member => ?_
          rw [own e member, decide_eq_true here]
        rw [all, if_pos (decide_eq_true here), List.flatMap_cons]
      · have nothing : (recorded duration isoformat call).filter (AuditLog.isOf jobName) = [] := by
          refine List.filter_eq_nil_iff.mpr fun e member => ?_
          rw [own e member, decide_eq_true_eq]
          exact here
        rw [nothing, List.nil_append, if_neg (by simpa using here)]

/-! ## Which runs are closed -/

/-- The events of a call are as they should be where its end is recorded, and fewer where it
is not. -/
theorem recorded_cases (duration : ExecutionResult → Except PyException ℚ)
    (isoformat : DateTime → String) (call : AuditedCall) :
    (∃ closed, closing duration isoformat call = .ok closed ∧ call.outcome = .ok closed.1 ∧
        (recorded duration isoformat call).map (fun e => (e.event, e.jobName)) = call.closed) ∨
      (∃ e, closing duration isoformat call = .error e) ∧
        (recorded duration isoformat call).length = 1 := by
  rw [recorded]
  cases closes : closing duration isoformat call with
  | error e => exact .inr ⟨⟨e, rfl⟩, rfl⟩
  | ok closed =>
      obtain ⟨result, event⟩ := closed
      obtain ⟨returned, detail, made⟩ := event_of_closing closes
      refine .inl ⟨(result, event), rfl, returned, ?_⟩
      have agrees : call.succeeded = result.success := by rw [AuditedCall.succeeded, returned]
      rw [AuditedCall.closed, agrees, made]
      rfl

theorem length_flatMap_closed (calls : List AuditedCall) :
    (calls.flatMap AuditedCall.closed).length = 2 * calls.length := by
  induction calls with
  | nil => rfl
  | cons call rest ih =>
      rw [List.flatMap_cons, List.length_append, ih, List.length_cons, AuditedCall.closed]
      exact (Nat.mul_succ 2 rest.length).symm ▸ Nat.add_comm ..

theorem length_flatMap_recorded_le (duration : ExecutionResult → Except PyException ℚ)
    (isoformat : DateTime → String) (calls : List AuditedCall) :
    (calls.flatMap (recorded duration isoformat)).length ≤ 2 * calls.length := by
  induction calls with
  | nil => exact le_rfl
  | cons call rest ih =>
      have few : (recorded duration isoformat call).length ≤ 2 := by
        rcases recorded_cases duration isoformat call with
          ⟨closed, -, -, same⟩ | ⟨-, one⟩
        · have two := congrArg List.length same
          rw [List.length_map] at two
          exact two.le
        · omega
      rw [List.flatMap_cons, List.length_append, List.length_cons]
      omega

/-- The events of some calls are as they should be exactly when all ends are recorded. -/
theorem recorded_iff (calls : List AuditedCall) :
    (calls.flatMap (recorded duration isoformat)).map (fun e => (e.event, e.jobName)) =
        calls.flatMap AuditedCall.closed ↔
      ∀ call ∈ calls, ∃ closed, closing duration isoformat call = .ok closed := by
  induction calls with
  | nil => simp
  | cons call rest ih =>
      rw [List.flatMap_cons, List.flatMap_cons, List.map_append, List.forall_mem_cons, ← ih]
      rcases recorded_cases duration isoformat call with
        ⟨closed, closes, -, same⟩ | ⟨⟨e, raises⟩, one⟩
      · rw [same, List.append_cancel_left_eq]
        exact ⟨fun others => ⟨⟨closed, closes⟩, others⟩, And.right⟩
      · -- one event is missing, and no other call adds more than its two
        refine iff_of_false (fun impossible => ?_) fun all => ?_
        · have lengths := congrArg List.length impossible
          have atMost := length_flatMap_recorded_le duration isoformat rest
          have others := length_flatMap_closed rest
          have two : call.closed.length = 2 := rfl
          rw [List.length_append, List.length_append, List.length_map, List.length_map, one, two,
            others] at lengths
          omega
        · obtain ⟨closed, returns⟩ := all.1
          rw [raises] at returns
          cases returns

/-- **Which sequences of calls are closed**: those in which every end can be recorded. -/
theorem closed_iff (readable : log.readAll = .ok before) (calls : List AuditedCall) :
    Closed duration isoformat log calls ↔
      ∀ call ∈ calls, ∃ closed, closing duration isoformat call = .ok closed := by
  rw [← recorded_iff]
  constructor
  · intro closed
    obtain ⟨before', added, readable', reads, kinds⟩ := closed.events
    rw [after_records calls readable'] at reads
    rw [← kinds, List.append_cancel_left (Except.ok.inj reads)]
  · intro kinds
    refine ⟨⟨before, _, readable, after_records calls readable, kinds⟩, ?_⟩
    intro earlier call later split result returned
    have ends := (recorded_iff calls).mp kinds call (split ▸ List.mem_append_right _ List.mem_cons_self)
    obtain ⟨⟨result', event⟩, closes⟩ := ends
    obtain ⟨same, -⟩ := event_of_closing closes
    rw [returned] at same
    cases same
    rw [(runWith_records call (after_records earlier readable)).1, closes]
    rfl

/-- **With a `duration` that can be read**, calls are closed exactly when the wrapped
function never raises. -/
theorem closed_with_iff (reads : ∀ result, ∃ seconds, duration result = .ok seconds)
    (readable : log.readAll = .ok before) (calls : List AuditedCall) :
    Closed duration isoformat log calls ↔
      ∀ call ∈ calls, ∃ result, call.outcome = .ok result := by
  rw [closed_iff readable]
  refine forall₂_congr fun call _ => ⟨?_, ?_⟩
  · rintro ⟨⟨result, event⟩, closes⟩
    exact ⟨result, (event_of_closing closes).1⟩
  · rintro ⟨result, returned⟩
    obtain ⟨seconds, read⟩ := reads result
    rw [closing, returned]
    show ∃ closed, (duration result >>= _) = .ok closed
    rw [read]
    exact ⟨_, rfl⟩

/-- **As written** nothing is closed: what returns ends in an `AttributeError`. -/
theorem closing_asWritten (call : AuditedCall) :
    closing ExecutionResult.duration isoformat call =
      match call.outcome with
      | .error e => .error e
      | .ok _ => .error (.attributeError "'ExecutionResult' object has no attribute 'duration'") := by
  rw [closing]
  cases call.outcome with
  | error e => rfl
  | ok result => rfl

theorem closed_asWritten_iff (readable : log.readAll = .ok before) (calls : List AuditedCall) :
    Closed ExecutionResult.duration isoformat log calls ↔ calls = [] := by
  rw [closed_iff readable, List.eq_nil_iff_forall_not_mem]
  refine forall₂_congr fun call _ => iff_of_false (fun ⟨closed, closes⟩ => ?_) not_false
  rw [closing_asWritten] at closes
  split at closes
  · cases closes
  · cases closes

end AuditingExecutor

end Cronwatch.Jobs
