/-
# Jobs.Executor -- one child process and the result made of it

`runJob` calls `subprocess.run` with the command and the time limit of the job and
turns what comes of it into an `ExecutionResult`: the child finished, the limit
expired, or starting it raised.  The last case is an `except Exception` that takes any
exception of the `try` block, also one that has nothing to do with the child.

The attribute that the limit is read from is a parameter of `runJobWith`.  With one
that answers the configured limit every result is faithful (`runJobWith_faithful`).
`runJob` reads `timeout_seconds`, which a `JobConfig` does not have, so no child is
ever started and the result is that of a failed start: it is faithful exactly to the
failed starts and to the children that finish with -1 (`runJob_faithful_iff`).
-/
import Cronwatch.Jobs.Config
import Cronwatch.Jobs.Execution
import Cronwatch.Runtime.Clock

namespace Cronwatch.Jobs

set_option autoImplicit false

open Cronwatch.Runtime

namespace Executor

/-- Output of a child that `TimeoutExpired` carries. -/
inductive Captured where
  | nothing
  | text (content : String)
  | bytes (content : List UInt8)
deriving DecidableEq

/-- What comes of `subprocess.run`. -/
inductive Child where
  | finished (exitCode : Int) (stdout stderr : String)
  | timeoutExpired (stdout stderr : Captured)
  | raised (e : PyException)
deriving DecidableEq

/-- The operating system and the clock. -/
structure Env where
  /-- `subprocess.run(command, shell=True, capture_output=True, text=True, timeout=timeout)`. -/
  subprocessRun : String → Option Int → Child
  /-- `bytes.decode()`. -/
  decode : List UInt8 → Except PyException String
  startedAt : ℚ
  finishedAt : ℚ

/-- `str(exc)`. -/
def strOfException : PyException → String
  | .typeError message | .valueError message | .overflowError message | .attributeError message
  | .dependencyCycleError message | .lockAcquisitionError message | .foreign message => message
  | .recursionError => "maximum recursion depth exceeded"

/-- `round(q, 3)`. -/
def round3 (q : ℚ) : ℚ := roundHalfEven (q * 1000) / 1000

/-- What the `try` block and its handlers assign. -/
structure Attempt where
  exitCode : Int
  stdout : String
  stderr : String
  timedOut : Bool := false
  error : Option String := none

/-- `exc.stdout.decode() if isinstance(exc.stdout, bytes) else (exc.stdout or "")`. -/
def textOf (env : Env) : Captured → Except PyException String
  | .nothing => .ok ""
  | .text content => .ok content
  | .bytes content => env.decode content

/-- `except Exception as exc`. -/
def unexpected (e : PyException) : Attempt where
  exitCode := -1
  stdout := ""
  stderr := ""
  error := some (strOfException e)

def strOfLimit : Option Int → String
  | none => "None"
  | some limit => (if limit < 0 then "-" else "") ++ strOf limit.natAbs

section Run

variable (timeoutSeconds : JobConfig → Except PyException (Option Int)) (env : Env)
  (job : JobConfig)

/-- `except subprocess.TimeoutExpired as exc`, which reads the limit again. -/
def expired (stdout stderr : Captured) : Except PyException Attempt :=
  match textOf env stdout with
  | .error e => .error e
  | .ok stdout =>
      match textOf env stderr with
      | .error e => .error e
      | .ok stderr =>
          match timeoutSeconds job with
          | .error e => .error e
          | .ok limit => .ok
              { exitCode := -1, stdout, stderr, timedOut := true
                error := some ("Job timed out after " ++ strOfLimit limit ++ "s") }

def attempt : Except PyException Attempt :=
  match timeoutSeconds job with
  | .error e => .ok (unexpected e)
  | .ok limit =>
      match env.subprocessRun job.command limit with
      | .finished exitCode stdout stderr => .ok { exitCode, stdout, stderr }
      | .timeoutExpired stdout stderr => expired timeoutSeconds env job stdout stderr
      | .raised e => .ok (unexpected e)

/-- `run_job`, with the attribute that the limit is read from. -/
def runJobWith : Except PyException ExecutionResult :=
  match attempt timeoutSeconds env job with
  | .error e => .error e
  | .ok made => .ok
      { jobName := job.name
        exitCode := made.exitCode
        stdout := made.stdout
        stderr := made.stderr
        durationSeconds := round3 (env.finishedAt - env.startedAt)
        startedAt := env.startedAt
        finishedAt := env.finishedAt
        timedOut := made.timedOut
        error := made.error }

end Run

/-- `job.timeout_seconds`.  The field of `JobConfig` is called `timeout`. -/
def timeoutSeconds (_ : JobConfig) : Except PyException (Option Int) :=
  .error (.attributeError "'JobConfig' object has no attribute 'timeout_seconds'")

def runJob (env : Env) (job : JobConfig) : Except PyException ExecutionResult :=
  runJobWith timeoutSeconds env job

/-! ## Faithful results -/

/-- The configured limit, `0` meaning none. -/
def limitOf (job : JobConfig) : Option Int := if job.timeout = 0 then none else some job.timeout

/-- The result reports what came of the child. -/
structure Faithful (child : Child) (result : ExecutionResult) : Prop where
  success : result.success = true ↔ ∃ stdout stderr, child = .finished 0 stdout stderr
  exitCode : ∀ n stdout stderr, child = .finished n stdout stderr → result.exitCode = n
  timedOut : result.timedOut = true ↔ ∃ stdout stderr, child = .timeoutExpired stdout stderr
  error : ∀ e, child = .raised e → ∃ text, result.error = some text ∧ text ≠ ""

/-- The result of a start that failed with this text is faithful to failed starts, and
to children that finish with -1. -/
theorem faithful_failed_iff {result : ExecutionResult} {text : String}
    (exitCode : result.exitCode = -1) (timedOut : result.timedOut = false)
    (error : result.error = some text) (nonempty : text ≠ "") (child : Child) :
    Faithful child result ↔
      (∃ e, child = .raised e) ∨ ∃ stdout stderr, child = .finished (-1) stdout stderr := by
  have unsuccessful : ¬ result.success = true := by
    simp [ExecutionResult.success, exitCode]
  have notExpired : ¬ result.timedOut = true := by simp [timedOut]
  cases child with
  | finished n stdout stderr =>
      constructor
      · intro faithful
        have code := faithful.exitCode n stdout stderr rfl
        rw [exitCode] at code
        exact .inr ⟨stdout, stderr, by rw [code]⟩
      · rintro (⟨e, ⟨⟩⟩ | ⟨_, _, ⟨⟩⟩)
        refine ⟨?_, ?_, ?_, ?_⟩
        · exact iff_of_false unsuccessful (by simp)
        · rintro n _ _ ⟨⟩
          exact exitCode
        · exact iff_of_false notExpired (by simp)
        · rintro e ⟨⟩
  | timeoutExpired stdout stderr =>
      refine iff_of_false (fun faithful => ?_) (by simp)
      exact notExpired (faithful.timedOut.mpr ⟨stdout, stderr, rfl⟩)
  | raised e =>
      refine iff_of_true ⟨?_, ?_, ?_, ?_⟩ (.inl ⟨e, rfl⟩)
      · exact iff_of_false unsuccessful (by simp)
      · rintro n _ _ ⟨⟩
      · exact iff_of_false notExpired (by simp)
      · exact fun _ _ => ⟨text, error, nonempty⟩

/-- **When the result of `run_job` is faithful.**  It returns for every job and every
behaviour of the child, and what it returns is faithful exactly when starting the
child with the configured limit raises or the child finishes with -1. -/
theorem runJob_faithful_iff (env : Env) (job : JobConfig) :
    ∃ result, runJob env job = .ok result ∧
      (Faithful (env.subprocessRun job.command (limitOf job)) result ↔
        (∃ e, env.subprocessRun job.command (limitOf job) = .raised e) ∨
          ∃ stdout stderr,
            env.subprocessRun job.command (limitOf job) = .finished (-1) stdout stderr) :=
  ⟨_, rfl, faithful_failed_iff rfl rfl rfl (by decide) _⟩

/-- `/bin/true`, on a system that runs it to its end at once. -/
def obedient : JobConfig where
  name := "obedient"
  command := "true"
  schedule := "* * * * *"
  timeout := 30

def idleSystem : Env where
  subprocessRun := fun _ _ => .finished 0 "" ""
  decode := fun _ => .ok ""
  startedAt := 0
  finishedAt := 1 / 8

/-- A child that finishes with 0 within the limit is reported as a failed start. -/
theorem finished_child_reported_failed :
    idleSystem.subprocessRun obedient.command (limitOf obedient) = .finished 0 "" "" ∧
      runJob idleSystem obedient = .ok
        { jobName := "obedient", exitCode := -1, stdout := "", stderr := ""
          durationSeconds := 1 / 8, startedAt := 0, finishedAt := 1 / 8
          error := some "'JobConfig' object has no attribute 'timeout_seconds'" } ∧
      ∃ result, runJob idleSystem obedient = .ok result ∧
        ¬ Faithful (.finished 0 "" "") result := by
  refine ⟨rfl, by decide +kernel, _, rfl, fun faithful => ?_⟩
  have code := faithful.exitCode 0 "" "" rfl
  revert code
  decide +kernel

/-! ## With an attribute that exists -/

/-- The handlers report every outcome, when the limit can be read, captured output can
be decoded and exceptions have a text. -/
theorem runJobWith_faithful (env : Env) (job : JobConfig)
    (decodes : ∀ content, ∃ text, env.decode content = .ok text)
    (texts : ∀ e, env.subprocessRun job.command (limitOf job) = .raised e → strOfException e ≠ "") :
    ∃ result, runJobWith (fun job => .ok (limitOf job)) env job = .ok result ∧
      Faithful (env.subprocessRun job.command (limitOf job)) result := by
  have texted : ∀ captured, ∃ text, textOf env captured = .ok text := by
    intro captured
    cases captured with
    | nothing => exact ⟨"", rfl⟩
    | text content => exact ⟨content, rfl⟩
    | bytes content => exact decodes content
  unfold runJobWith attempt
  dsimp only
  cases outcome : env.subprocessRun job.command (limitOf job) with
  | finished n stdout stderr =>
      refine ⟨_, rfl, ?_, ?_, ?_, ?_⟩
      · simp [ExecutionResult.success]
      · rintro n' _ _ ⟨⟩
        rfl
      · simp
      · rintro e ⟨⟩
  | timeoutExpired stdout stderr =>
      obtain ⟨out, decodedOut⟩ := texted stdout
      obtain ⟨err, decodedErr⟩ := texted stderr
      dsimp only
      rw [expired, decodedOut, decodedErr]
      refine ⟨_, rfl, ?_, ?_, ?_, ?_⟩
      · simp [ExecutionResult.success]
      · rintro n _ _ ⟨⟩
      · simp
      · rintro e ⟨⟩
  | raised e =>
      refine ⟨_, rfl, ?_, ?_, ?_, ?_⟩
      · simp [ExecutionResult.success, unexpected]
      · rintro n _ _ ⟨⟩
      · simp [unexpected]
      · intro e' same
        exact ⟨_, rfl, texts e outcome⟩

end Executor

end Cronwatch.Jobs
