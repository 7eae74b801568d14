/-
# Jobs.SnapshotReporter -- what is recorded as the last good run, and who has regressed

`record` keeps a snapshot of a result with exit code 0, and `analyse` reports the results
with another one of jobs that have a snapshot.

A snapshot is made of attributes that an `ExecutionResult` does not have, or not with that
type: `command`, `duration`, and `isoformat` of a float.  The attributes are a parameter of
`recordWith`.  With ones that exist the snapshots are the last successes (`lastGood_with`),
as long as exit code 0 means success; as written the first result with exit code 0 raises
(`lastGood_iff`).
-/
import Cronwatch.Jobs.Execution
import Cronwatch.Jobs.Snapshot
import Cronwatch.Theory.Splits

namespace Cronwatch.Jobs

set_option autoImplicit false

open Cronwatch.Theory Cronwatch.Runtime

namespace Snapshot

/-- What is read of a result, and the `isoformat` of its start. -/
structure Attributes where
  command : ExecutionResult → Except PyException String
  isoformat : ℚ → Except PyException String
  duration : ExecutionResult → Except PyException Number

/-- The attributes as the code spells them; the clock reading is a float. -/
def asWritten : Attributes where
  command := fun _ => .error (.attributeError "'ExecutionResult' object has no attribute 'command'")
  isoformat := fun _ => .error (.attributeError "'float' object has no attribute 'isoformat'")
  duration := fun _ => .error (.attributeError "'ExecutionResult' object has no attribute 'duration'")

/-- `from_result`. -/
def fromResultWith (attributes : Attributes) (result : ExecutionResult) :
    Except PyException Snapshot := do
  let command ← attributes.command result
  let startedAt ← attributes.isoformat result.startedAt
  let duration ← attributes.duration result
  return { jobName := .str result.jobName, command := .str command,
           exitCode := .number (.int result.exitCode), startedAt := .str startedAt,
           duration := .number duration }

/-- All attributes can be read. -/
structure Attributes.Present (attributes : Attributes) : Prop where
  command : ∀ result, ∃ command, attributes.command result = .ok command
  isoformat : ∀ reading, ∃ text, attributes.isoformat reading = .ok text
  duration : ∀ result, ∃ duration, attributes.duration result = .ok duration

theorem fromResultWith_asWritten (result : ExecutionResult) :
    fromResultWith asWritten result =
      .error (.attributeError "'ExecutionResult' object has no attribute 'command'") := rfl

theorem Attributes.Present.fromResultWith {attributes : Attributes} (present : attributes.Present)
    (result : ExecutionResult) : ∃ snapshot, fromResultWith attributes result = .ok snapshot := by
  obtain ⟨command, command_read⟩ := present.command result
  obtain ⟨startedAt, startedAt_read⟩ := present.isoformat result.startedAt
  obtain ⟨duration, duration_read⟩ := present.duration result
  rw [Snapshot.fromResultWith, command_read, startedAt_read, duration_read]
  exact ⟨_, rfl⟩

end Snapshot

namespace SnapshotStore

open Snapshot (Attributes asWritten)

/-- `record`, on the map that is persisted afterwards. -/
def recordWith (attributes : Attributes) (data : Dict String Snapshot) (result : ExecutionResult) :
    Except PyException (Dict String Snapshot) :=
  if result.exitCode ≠ 0 then .ok data
  else (Snapshot.fromResultWith attributes result).map (data.set result.jobName)

/-- Results that are recorded one after the other. -/
def recordAll (attributes : Attributes) (data : Dict String Snapshot)
    (results : List ExecutionResult) : Except PyException (Dict String Snapshot) :=
  results.foldlM (recordWith attributes) data

/-- `recordWith` leaves the map that the store's operation persists, where the attributes
are those of the result that it takes. -/
theorem recordWith_updated {attributes : Attributes} {isoformat : DateTime → String}
    {result : ExecutionResult} {read : SnapshotResult} (jobName : read.jobName = result.jobName)
    (exitCode : read.exitCode = result.exitCode)
    (made : Snapshot.fromResultWith attributes result = .ok (Snapshot.fromResult isoformat read))
    (data : Dict String Snapshot) :
    recordWith attributes data result =
      .ok (((Op.record read).updated isoformat data).getD data) := by
  rw [recordWith, Op.updated, jobName, exitCode]
  split
  · rfl
  · rw [made]
    rfl

end SnapshotStore

structure SnapshotReport where
  jobName : String
  lastGood : Snapshot
  currentExitCode : Int
  isRegression : Bool

namespace SnapshotReporter

open Snapshot (Attributes asWritten)
open SnapshotStore (recordWith recordAll)

/-- The pass of the loop for one result. -/
def report (data : Dict String Snapshot) (result : ExecutionResult) : Option SnapshotReport :=
  if result.exitCode = 0 then none
  else
    match data.get? result.jobName with
    | none => none
    | some snapshot => some { jobName := result.jobName, lastGood := snapshot,
                              currentExitCode := result.exitCode, isRegression := true }

def analyse (data : Dict String Snapshot) (results : List ExecutionResult) : List SnapshotReport :=
  results.filterMap (report data)

def neverSucceeded (data : Dict String Snapshot) (allJobNames : List String) : List String :=
  allJobNames.filter fun n => (data.get? n).isNone

/-! ## The last good runs -/

/-- The most recent success of the job. -/
def lastSuccess (results : List ExecutionResult) (jobName : String) : Option ExecutionResult :=
  lastWith (fun result => result.jobName = jobName ∧ result.success) results

/-- The result is a failure of a job that has succeeded before. -/
def regressed (results : List ExecutionResult) (result : ExecutionResult) : Bool :=
  !result.success && (lastSuccess results result.jobName).isSome

/-- There is a snapshot exactly of the jobs that have succeeded, made of their last success. -/
def Describes (attributes : Attributes) (data : Dict String Snapshot)
    (results : List ExecutionResult) : Prop :=
  ∀ jobName, match lastSuccess results jobName with
    | none => data.get? jobName = none
    | some result => ∃ snapshot, data.get? jobName = some snapshot ∧
        Snapshot.fromResultWith attributes result = .ok snapshot

/-- The reports are those of the regressed results, in order. -/
def Reports (data : Dict String Snapshot) (results fresh : List ExecutionResult) : Prop :=
  (analyse data fresh).map (fun r => (r.jobName, r.currentExitCode)) =
    (fresh.filter (regressed results)).map fun r => (r.jobName, r.exitCode)

/-- The results are recorded without an exception in a new store, which then knows the last
good runs and the regressions from them. -/
def LastGood (attributes : Attributes) (results : List ExecutionResult) : Prop :=
  ∃ data, recordAll attributes .empty results = .ok data ∧ Describes attributes data results ∧
    ∀ fresh, Reports data results fresh

theorem exitCode_of_success {result : ExecutionResult} (success : result.success = true) :
    result.exitCode = 0 := by
  rw [ExecutionResult.success, decide_eq_true_eq] at success
  exact success.1

theorem lastSuccess_append (before : List ExecutionResult) (result : ExecutionResult)
    (jobName : String) : lastSuccess (before ++ [result]) jobName =
      if result.jobName = jobName ∧ result.success then some result
      else lastSuccess before jobName := by
  rw [lastSuccess, lastWith_append_single, lastSuccess]
  simp only [decide_eq_true_eq]

theorem lastSuccess_eq_none {results : List ExecutionResult}
    (failed : ∀ result ∈ results, result.exitCode ≠ 0) (jobName : String) :
    lastSuccess results jobName = none := by
  rw [lastSuccess, lastWith_eq_none_iff]
  intro result member good
  rw [decide_eq_true_eq] at good
  exact failed result member (exitCode_of_success good.2)

/-- One result is reported, where the map has a snapshot of the jobs that have succeeded
and its exit code says whether it is a success. -/
theorem report_eq {attributes : Attributes} {data : Dict String Snapshot}
    {results : List ExecutionResult} (describes : Describes attributes data results)
    {result : ExecutionResult}
    (told : result.exitCode = 0 → lastSuccess results result.jobName = none ∨ result.success) :
    (report data result).map (fun r => (r.jobName, r.currentExitCode)) =
      if regressed results result then some (result.jobName, result.exitCode) else none := by
  have known := describes result.jobName
  rw [report, regressed]
  by_cases zero : result.exitCode = 0
  · rw [if_pos zero]
    rcases told zero with new | success
    · simp [new]
    · simp [success]
  · have failed : result.success = false := by
      rw [Bool.eq_false_iff]
      exact fun success => zero (exitCode_of_success success)
    rw [if_neg zero, failed]
    cases last : lastSuccess results result.jobName with
    | none =>
        simp only [last] at known
        rw [known]
        rfl
    | some success =>
        simp only [last] at known
        obtain ⟨snapshot, held, -⟩ := known
        rw [held]
        rfl

theorem reports_of_describes {attributes : Attributes} {data : Dict String Snapshot}
    {results fresh : List ExecutionResult} (describes : Describes attributes data results)
    (told : ∀ result ∈ fresh, result.exitCode = 0 →
      lastSuccess results result.jobName = none ∨ result.success) :
    Reports data results fresh := by
  induction fresh with
  | nil => rfl
  | cons result rest ih =>
      have one := report_eq describes (told result List.mem_cons_self)
      have others := ih fun other member => told other (List.mem_cons_of_mem result member)
      rw [Reports, analyse] at others ⊢
      rw [List.filterMap_cons, List.filter_cons]
      cases reported : report data result with
      | none =>
          rw [reported] at one
          split at one
          · cases one
          · rename_i same
            rw [if_neg same]
            exact others
      | some r =>
          rw [reported] at one
          split at one
          · rename_i regressed
            rw [if_pos regressed, List.map_cons, List.map_cons, others]
            rw [Option.map_some, Option.some.injEq] at one
            rw [one]
          · cases one

theorem mem_neverSucceeded_iff {attributes : Attributes} {data : Dict String Snapshot}
    {results : List ExecutionResult} (describes : Describes attributes data results)
    (allJobNames : List String) (jobName : String) :
    jobName ∈ neverSucceeded data allJobNames ↔
      jobName ∈ allJobNames ∧ lastSuccess results jobName = none := by
  rw [neverSucceeded, List.mem_filter]
  have known := describes jobName
  cases last : lastSuccess results jobName with
  | none =>
      simp only [last] at known
      simp [known]
  | some success =>
      simp only [last] at known
      obtain ⟨snapshot, held, -⟩ := known
      simp [held]

/-- A step of the recording, where exit code 0 means success and the attributes exist. -/
theorem describes_record {attributes : Attributes} (present : attributes.Present)
    {data : Dict String Snapshot} {before : List ExecutionResult}
    (describes : Describes attributes data before) {result : ExecutionResult}
    (honest : result.exitCode = 0 → result.success) :
    ∃ data', recordWith attributes data result = .ok data' ∧
      Describes attributes data' (before ++ [result]) := by
  rw [recordWith]
  by_cases zero : result.exitCode = 0
  · obtain ⟨snapshot, made⟩ := present.fromResultWith result
    rw [if_neg (not_not_intro zero), made]
    refine ⟨data.set result.jobName snapshot, rfl, fun jobName => ?_⟩
    rw [lastSuccess_append]
    by_cases here : result.jobName = jobName
    · subst here
      rw [if_pos ⟨rfl, honest zero⟩]
      exact ⟨snapshot, Dict.get?_set_self data _ _, made⟩
    · rw [if_neg fun good => here good.1, Dict.get?_set_of_ne data _ (Ne.symm here)]
      exact describes jobName
  · rw [if_pos zero]
    refine ⟨data, rfl, fun jobName => ?_⟩
    rw [lastSuccess_append, if_neg fun good => zero (exitCode_of_success good.2)]
    exact describes jobName

/-- **With attributes that exist**, the snapshots of results whose exit code tells whether
they are successes are the last successes, and the reports those of the regressions. -/
theorem lastGood_with {attributes : Attributes} (present : attributes.Present)
    (results : List ExecutionResult)
    (honest : ∀ result ∈ results, result.exitCode = 0 → result.success) :
    ∃ data, recordAll attributes .empty results = .ok data ∧
      Describes attributes data results ∧
        ∀ fresh : List ExecutionResult,
          (∀ result ∈ fresh, result.exitCode = 0 → result.success) →
            Reports data results fresh := by
  have recorded : ∃ data, recordAll attributes .empty results = .ok data ∧
      Describes attributes data results := by
    induction results using List.reverseRecOn with
    | nil => exact ⟨.empty, rfl, fun _ => rfl⟩
    | append_singleton before result ih =>
        obtain ⟨data, returned, describes⟩ :=
          ih fun other member => honest other (List.mem_append_left _ member)
        obtain ⟨data', added, later⟩ := describes_record present describes
          (honest result (List.mem_append_right _ List.mem_cons_self))
        refine ⟨data', ?_, later⟩
        rw [recordAll] at returned ⊢
        rw [List.foldlM_append, returned]
        show recordWith attributes data result >>= pure = _
        rw [added]
        rfl
  obtain ⟨data, returned, describes⟩ := recorded
  exact ⟨data, returned, describes, fun fresh told =>
    reports_of_describes describes fun result member zero => .inr (told result member zero)⟩

/-! ## As written -/

theorem recordWith_asWritten (data : Dict String Snapshot) {result : ExecutionResult}
    (zero : result.exitCode = 0) : recordWith asWritten data result =
      .error (.attributeError "'ExecutionResult' object has no attribute 'command'") := by
  rw [recordWith, if_neg (not_not_intro zero), Snapshot.fromResultWith_asWritten]
  rfl

/-- Recording goes through exactly where it never has anything to record. -/
theorem recordAll_asWritten_iff (results : List ExecutionResult) (data data' : Dict String Snapshot) :
    recordAll asWritten data results = .ok data' ↔
      (∀ result ∈ results, result.exitCode ≠ 0) ∧ data' = data := by
  induction results with
  | nil =>
      rw [recordAll, List.foldlM_nil]
      constructor
      · intro returned
        cases returned
        exact ⟨fun _ impossible => absurd impossible List.not_mem_nil, rfl⟩
      · rintro ⟨-, rfl⟩
        rfl
  | cons result rest ih =>
      rw [recordAll] at ih ⊢
      rw [List.foldlM_cons]
      by_cases zero : result.exitCode = 0
      · rw [recordWith_asWritten data zero]
        refine iff_of_false (fun returned => nomatch returned) fun all => ?_
        exact all.1 result List.mem_cons_self zero
      · rw [recordWith, if_pos zero, List.forall_mem_cons]
        simp only [zero, not_false_eq_true, ne_eq, true_and]
        exact ih

/-- **A store knows the last good runs exactly as long as no run is good**: the first
result with exit code 0 raises. -/
theorem lastGood_iff (results : List ExecutionResult) :
    LastGood asWritten results ↔ ∀ result ∈ results, result.exitCode ≠ 0 := by
  constructor
  · rintro ⟨data, returned, -⟩
    exact ((recordAll_asWritten_iff results .empty data).mp returned).1
  · intro failed
    have new := lastSuccess_eq_none failed
    have describes : Describes asWritten .empty results := by
      intro jobName
      rw [new]
      rfl
    exact ⟨.empty, (recordAll_asWritten_iff results .empty .empty).mpr ⟨failed, rfl⟩, describes,
      fun fresh => reports_of_describes describes fun result _ _ => .inl (new result.jobName)⟩

/-- A backup that went well. -/
def goodBackup : ExecutionResult where
  jobName := "backup"
  exitCode := 0
  stdout := "ok"
  stderr := ""
  durationSeconds := 90
  startedAt := 1717243200
  finishedAt := 1717243290

/-- The first good run is not recorded. -/
theorem lastGood_backup_fails : ¬ LastGood asWritten [goodBackup] := by
  rintro ⟨data, returned, -⟩
  cases returned

end SnapshotReporter

end Cronwatch.Jobs
