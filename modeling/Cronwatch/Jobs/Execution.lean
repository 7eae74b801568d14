/-
# Jobs.Execution -- what one run of a job leaves

`ExecutionResult` as `executor.py` declares it, and `RunnerResult` as `job_runner.py`
does.  Clock readings and durations are exact numbers of seconds.

`duration` and `success` are no fields of an `ExecutionResult`, though much of the
repository reads or passes them: reading the first raises (`duration`), and so does
making a result from keywords with one of them (`init_of_success`).
-/
import Cronwatch.Runtime.Keywords
import Mathlib.Data.Rat.Defs

namespace Cronwatch.Jobs

set_option autoImplicit false

open Cronwatch.Runtime

structure ExecutionResult where
  jobName : String
  exitCode : Int
  stdout : String
  stderr : String
  durationSeconds : ℚ
  startedAt : ℚ
  finishedAt : ℚ
  timedOut : Bool := false
  error : Option String := none
deriving DecidableEq

namespace ExecutionResult

def success (result : ExecutionResult) : Bool :=
  result.exitCode = 0 ∧ ¬ result.timedOut ∧ result.error = none

/-- `result.duration`.  The field is called `duration_seconds`. -/
def duration (_ : ExecutionResult) : Except PyException ℚ :=
  .error (.attributeError "'ExecutionResult' object has no attribute 'duration'")

/-- A keyword of a call of `ExecutionResult`, with its value. -/
inductive Argument where
  | jobName (value : String)
  | success (value : Bool)
  | exitCode (value : Int)
  | stdout (value : String)
  | stderr (value : String)
  | duration (value : ℚ)
  | durationSeconds (value : ℚ)
  | startedAt (value : ℚ)
  | finishedAt (value : ℚ)
  | timedOut (value : Bool)
  | error (value : Option String)

def Argument.keyword : Argument → String
  | .jobName _ => "job_name"
  | .success _ => "success"
  | .exitCode _ => "exit_code"
  | .stdout _ => "stdout"
  | .stderr _ => "stderr"
  | .duration _ => "duration"
  | .durationSeconds _ => "duration_seconds"
  | .startedAt _ => "started_at"
  | .finishedAt _ => "finished_at"
  | .timedOut _ => "timed_out"
  | .error _ => "error"

/-- `__init__` of the dataclass. -/
def signature : Signature where
  function := "ExecutionResult.__init__"
  required := ["job_name", "exit_code", "stdout", "stderr", "duration_seconds", "started_at",
    "finished_at"]
  optional := ["timed_out", "error"]

/-- One more field set; the keywords that are no field do not get here. -/
def assign (result : ExecutionResult) : Argument → ExecutionResult
  | .jobName jobName => { result with jobName }
  | .exitCode exitCode => { result with exitCode }
  | .stdout stdout => { result with stdout }
  | .stderr stderr => { result with stderr }
  | .durationSeconds durationSeconds => { result with durationSeconds }
  | .startedAt startedAt => { result with startedAt }
  | .finishedAt finishedAt => { result with finishedAt }
  | .timedOut timedOut => { result with timedOut }
  | .error error => { result with error }
  | .success _ | .duration _ => result

/-- `ExecutionResult(...)` with these keywords. -/
def init (arguments : List Argument) : Except PyException ExecutionResult :=
  match signature.bind (arguments.map Argument.keyword) with
  | .error e => .error e
  | .ok () => .ok (arguments.foldl assign
      { jobName := "", exitCode := 0, stdout := "", stderr := "", durationSeconds := 0,
        startedAt := 0, finishedAt := 0 })

/-- A result with its own fields is made as it is. -/
theorem init_fields (result : ExecutionResult) :
    init [.jobName result.jobName, .exitCode result.exitCode, .stdout result.stdout,
      .stderr result.stderr, .durationSeconds result.durationSeconds, .startedAt result.startedAt,
      .finishedAt result.finishedAt, .timedOut result.timedOut, .error result.error] =
        .ok result := by
  have bound : signature.bind ["job_name", "exit_code", "stdout", "stderr", "duration_seconds",
      "started_at", "finished_at", "timed_out", "error"] = .ok () :=
    (signature.bind_returns_iff _).mpr (by decide)
  simp only [init, List.map_cons, List.map_nil, Argument.keyword, bound, List.foldl_cons,
    List.foldl_nil, assign]

/-- **No result is made from a keyword `success`**, whatever else is passed. -/
theorem init_of_success (jobName : String) (value : Bool) (rest : List Argument) :
    init (.jobName jobName :: .success value :: rest) =
      .error (.typeError "ExecutionResult.__init__() got an unexpected keyword argument 'success'") := by
  have foreign : signature.bind (["job_name"] ++ "success" :: rest.map Argument.keyword) =
      .error (signature.unexpected "success") :=
    signature.bind_of_foreign (by decide) (by decide)
  rw [List.singleton_append] at foreign
  rw [init, List.map_cons, List.map_cons, Argument.keyword, Argument.keyword, foreign]
  rfl

end ExecutionResult

structure RunnerResult where
  result : Option ExecutionResult
  skipped : Bool := false
  skipReason : String := ""
  lockPath : String := ""
deriving DecidableEq

end Cronwatch.Jobs
