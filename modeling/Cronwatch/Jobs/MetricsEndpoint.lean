/-
# Jobs.MetricsEndpoint -- what the metrics page shows, between records and resets

Jobs feed a `MetricsCollector` from their own threads, somebody resets counters, and the handler of
the endpoint copies all counters when it is asked.  A lock makes each of these one step, so what the
page shows depends on the order of the steps alone.

`metrics_served`: after any steps, the page is a JSON object with one member for each job that has
run since its counters were last reset, and every number of it is one of those runs.  `repr` is the
text of a float; the sums and quotients that it is given are exact, those of doubles round.
-/
import Cronwatch.Jobs.Metrics
import Cronwatch.Runtime.Json

namespace Cronwatch.Jobs

set_option autoImplicit false

open Cronwatch.Theory Cronwatch.Runtime
open Cronwatch.Theory.Json (Token)

namespace MetricsEndpoint

inductive Op where
  | record (result : ExecutionResult)
  | reset (jobName : Option String)

def perform (collector : MetricsCollector) : Op → MetricsCollector
  | .record result => collector.record result
  | .reset jobName => collector.reset jobName

def after (ops : List Op) : MetricsCollector := ops.foldl perform {}

section Page

variable (repr : ℚ → String)

def floatOrNone : Option ℚ → PyValue
  | none => .none
  | some q => .number (.float (repr q))

def intOrNone : Option Int → PyValue
  | none => .none
  | some n => .number (.int n)

/-- A member of the payload. -/
def row (m : JobMetrics) : PyValue :=
  .dict [(.str "total_runs", .number (.int m.totalRuns)), (.str "total_failures", .number (.int m.totalFailures)),
    (.str "success_rate", floatOrNone repr m.successRate),
    (.str "average_duration_seconds", floatOrNone repr m.averageDuration),
    (.str "last_exit_code", intOrNone m.lastExitCode)]

/-- `collector.all()`, as the payload has it. -/
def payload (collector : MetricsCollector) : PyValue :=
  .dict (collector.data.entries.map fun e => (.str e.1, row repr e.2))

structure Response where
  status : Nat
  headers : List (String × String) := []
  body : List (Token Number) := []

/-- `do_GET`; `length` is the number of the bytes of a text. -/
def doGET (length : List (Token Number) → Nat) (path : String) (collector : MetricsCollector) :
    Except PyException Response :=
  if path ≠ "/metrics" then .ok { status := 404 }
  else
    match (payload repr collector).dump.error with
    | some e => .error e
    | none =>
        let body := (payload repr collector).dump.tokens
        .ok { status := 200
              headers := [("Content-Type", "application/json"), ("Content-Length", toString (length body))]
              body }

end Page

/-! ## The runs since the last reset -/

def sinceAfter (jobName : String) (results : List ExecutionResult) : Op → List ExecutionResult
  | .record result => if result.jobName = jobName then results ++ [result] else results
  | .reset none => []
  | .reset (some jobName') => if jobName' = jobName then [] else results

/-- The results of the job since its counters were last reset. -/
def since (jobName : String) (ops : List Op) : List ExecutionResult := ops.foldl (sinceAfter jobName) []

/-- The counters of these results. -/
def counted (results : List ExecutionResult) : JobMetrics where
  totalRuns := results.length
  totalFailures := results.countP fun result => !result.success
  totalDurationSeconds := (results.map ExecutionResult.durationSeconds).sum
  lastExitCode := results.getLast?.map ExecutionResult.exitCode

theorem counted_append_single (results : List ExecutionResult) (result : ExecutionResult) :
    counted (results ++ [result]) = (counted results).add result := by
  cases succeeded : result.success <;> simp [counted, JobMetrics.add, succeeded]

/-- **The counters after any steps** are those of the results since the last reset, where there are
some. -/
theorem get_after (ops : List Op) (jobName : String) :
    (after ops).get jobName = if since jobName ops = [] then none else some (counted (since jobName ops)) := by
  induction ops using List.reverseRecOn with
  | nil => rfl
  | append_singleton before op ih =>
      rw [after, since, List.foldl_concat, List.foldl_concat, ← after, ← since]
      rw [MetricsCollector.get] at ih
      cases op with
      | record result =>
          rw [perform, MetricsCollector.get, MetricsCollector.record, Dict.get?_set, sinceAfter]
          by_cases same : result.jobName = jobName
          · subst same
            rw [if_pos rfl, if_pos rfl, if_neg (List.append_ne_nil_of_right_ne_nil _ (List.cons_ne_nil _ _)),
              counted_append_single, ih]
            by_cases none_ : since result.jobName before = []
            · rw [if_pos none_, none_]
              rfl
            · rw [if_neg none_]
              rfl
          · rw [if_neg (Ne.symm same), if_neg same]
            exact ih
      | reset target =>
          cases target with
          | none => rfl
          | some name =>
              rw [perform, MetricsCollector.get, MetricsCollector.reset, sinceAfter, Dict.get?_erase]
              by_cases same : name = jobName
              · rw [if_pos same.symm, if_pos same]
                rfl
              · rw [if_neg (Ne.symm same), if_neg same]
                exact ih

theorem native_payload (repr : ℚ → String) (collector : MetricsCollector) : (payload repr collector).Native := by
  refine native_members (row repr) (fun e _ => ?_) collector.data.keysNodup
  have float : ∀ q, (floatOrNone repr q).Native := fun q => by cases q <;> exact trivial
  have int : ∀ n, (intOrNone n).Native := fun n => by cases n <;> exact trivial
  refine ⟨⟨⟨_, rfl⟩, trivial, ⟨_, rfl⟩, trivial, ⟨_, rfl⟩, float _, ⟨_, rfl⟩, float _, ⟨_, rfl⟩, int _, trivial⟩, ?_⟩
  simp

/-- The rate is the part of the runs that succeeded. -/
theorem successRate_counted {results : List ExecutionResult} (some_ : results ≠ []) :
    (counted results).successRate =
      some ((results.countP fun result => result.success : ℚ) / results.length) := by
  have runs : results.length ≠ 0 := fun none_ => some_ (List.length_eq_zero_iff.mp none_)
  have both : results.length = results.countP (fun result => result.success) +
      results.countP fun result => !result.success := by
    rw [List.length_eq_countP_add_countP fun result : ExecutionResult => result.success]
    simp
  have failed : (counted results).totalFailures = results.countP fun result => !result.success := rfl
  have all : (counted results).totalRuns = results.length := rfl
  rw [JobMetrics.successRate, all, failed, if_neg runs]
  have difference : ((results.length : ℚ) - (results.countP fun result => !result.success : ℕ)) =
      (results.countP fun result => result.success : ℕ) := by
    rw [sub_eq_iff_eq_add]
    exact_mod_cast both
  rw [difference]

/-- **What the page shows** after any records and resets: for each job that has run since its
counters were last reset, and for no other, the numbers of those runs. -/
theorem metrics_served (repr : ℚ → String) (length : List (Token Number) → Nat) (ops : List Op) :
    ∃ response j members, doGET repr length "/metrics" (after ops) = .ok response ∧
      response.status = 200 ∧ Json.parse response.body = some j ∧ ofJson j = .dict members ∧
      (members.map Prod.fst).Nodup ∧
      (∀ key value, (key, value) ∈ members ↔ ∃ jobName, key = .str jobName ∧
        since jobName ops ≠ [] ∧ value = row repr (counted (since jobName ops))) ∧
      ∀ jobName, since jobName ops ≠ [] → (counted (since jobName ops)).successRate =
        some (((since jobName ops).countP fun result => result.success : ℚ) / (since jobName ops).length) := by
  have native := native_payload repr (after ops)
  obtain ⟨written, j, parsed, back⟩ := native_roundTrip native
  obtain ⟨headers, served⟩ : ∃ headers, doGET repr length "/metrics" (after ops) =
      .ok { status := 200, headers, body := (payload repr (after ops)).dump.tokens } := by
    rw [doGET, if_neg (not_not.mpr rfl), written]
    exact ⟨_, rfl⟩
  let members := (after ops).data.entries.map fun e => (Key.str e.1, row repr e.2)
  refine ⟨_, j, members, served, rfl, parsed, back, native.2, fun key value => ?_, fun _ => successRate_counted⟩
  rw [List.mem_map]
  constructor
  · rintro ⟨⟨jobName, m⟩, member, is⟩
    obtain ⟨rfl, rfl⟩ := Prod.mk.inj is
    have held := get_after ops jobName
    rw [MetricsCollector.get, (Dict.mem_entries_iff _ _ _).mp member] at held
    split at held
    · cases held
    · rename_i some_
      exact ⟨jobName, rfl, some_, by rw [Option.some.inj held]⟩
  · rintro ⟨jobName, rfl, some_, rfl⟩
    have held := get_after ops jobName
    rw [if_neg some_] at held
    exact ⟨(jobName, _), (Dict.mem_entries_iff _ _ _).mpr held, rfl⟩

end MetricsEndpoint

end Cronwatch.Jobs
