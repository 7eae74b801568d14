/-
# Jobs.Runner -- one run of a job under its lock and its time limit

`JobRunner.run` takes the lock, executes the job, and gives the lock back in a
`finally` clause.  The lock is a file on a disk (`Jobs.LockFile`), and `run` handles one
exception of `acquire` only: a lock directory that cannot be made, or a lock file that
cannot be written, is an exception of `run`.  What it does with the result reads attributes
that do not exist: `result.duration` when there is a time limit, and `lock._lock_path` in
any case.  So no run that gets the lock returns (`run_lawful_iff`), and the lock is given
back all the same (`runWith_of_granted`).

The attributes are a parameter of `runWith`; with ones that exist every run that is
refused the lock or gets it is lawful (`runWith_lawful`).
-/
import Cronwatch.Jobs.LockFile
import Cronwatch.Jobs.Timeout

namespace Cronwatch.Jobs

set_option autoImplicit false

open Cronwatch.Theory Cronwatch.Runtime
open LockFile (AcquireError System lockFile)

/-- The disk with the lock files, and the jobs executed so far. -/
structure World where
  disk : FileSystem
  executed : List JobConfig

structure JobRunner where
  lockDir : String := "/tmp/cronwatch/locks"
  timeoutPolicy : TimeoutPolicy := {}
  /-- `run` of the auditing executor, when there is one. -/
  auditingExecutor : Option (JobConfig → Except PyException ExecutionResult) := none

namespace JobRunner

/-- What is read of results and locks, and the call that makes a result. -/
structure Attributes where
  duration : ExecutionResult → Except PyException ℚ
  lockPath : JobLock → Except PyException String
  init : List ExecutionResult.Argument → Except PyException ExecutionResult

/-- The attributes as the code spells them. -/
def asWritten : Attributes where
  duration := ExecutionResult.duration
  lockPath := fun _ => .error (.attributeError "'JobLock' object has no attribute '_lock_path'")
  init := ExecutionResult.init

/-- The call that executes the job. -/
def execution (runJob : JobConfig → Except PyException ExecutionResult) (runner : JobRunner) :
    JobConfig → Except PyException ExecutionResult :=
  runner.auditingExecutor.getD runJob

section With

variable (attributes : Attributes)

/-- The failed version of a result that took too long. -/
def overTime (raw : ExecutionResult) (timeout : Int) : Except PyException ExecutionResult :=
  match attributes.duration raw with
  | .error e => .error e
  | .ok duration =>
      attributes.init [.jobName raw.jobName, .success false, .exitCode raw.exitCode,
        .stdout raw.stdout,
        .stderr (raw.stderr ++ s!"\n[cronwatch] timed out after {timeout}s"),
        .duration duration, .startedAt raw.startedAt]

/-- What `_execute` does with the result it gets. -/
def judge (timeout : Int) (raw : ExecutionResult) : Except PyException ExecutionResult :=
  if 0 < timeout then
    match attributes.duration raw with
    | .error e => .error e
    | .ok duration => if timeout < duration then overTime attributes raw timeout else .ok raw
  else .ok raw

/-- `_execute(job, timeout)`. -/
def executeWith (runJob : JobConfig → Except PyException ExecutionResult) (job : JobConfig)
    (timeout : Int) (runner : JobRunner) : Except PyException ExecutionResult :=
  match runner.execution runJob job with
  | .error e => .error e
  | .ok raw => judge attributes timeout raw

/-- What `run` returns once the lock is given back. -/
def finish (lock : JobLock) :
    Except PyException ExecutionResult → Except PyException RunnerResult
  | .error e => .error e
  | .ok result =>
      match attributes.lockPath lock with
      | .error e => .error e
      | .ok lockPath => .ok { result := some result, lockPath }

/-- `run(job)`. -/
def runWith (system : System) (runJob : JobConfig → Except PyException ExecutionResult)
    (job : JobConfig) (world : World) (runner : JobRunner) :
    Except AcquireError RunnerResult × World :=
  match LockFile.acquire system { jobName := job.name } runner.lockDir world.disk with
  | (.error (.python (.lockAcquisitionError message)), _, disk) =>
      (.ok { result := none, skipped := true, skipReason := message }, { world with disk })
  | (.error e, _, disk) => (.error e, { world with disk })
  | (.ok (), lock, disk) =>
      let result := executeWith attributes runJob job (runner.timeoutPolicy.timeoutFor job.name)
        runner
      let executed := world.executed ++ [job]
      -- the `finally` clause
      match LockFile.release (lockFile runner.lockDir job.name) lock disk with
      | (.error e, _, disk) => (.error e, { disk, executed })
      | (.ok (), lock, disk) => ((finish attributes lock result).mapError .python, { disk, executed })

end With

def execute (runJob : JobConfig → Except PyException ExecutionResult) (job : JobConfig)
    (timeout : Int) (runner : JobRunner) : Except PyException ExecutionResult :=
  executeWith asWritten runJob job timeout runner

def run (system : System) (runJob : JobConfig → Except PyException ExecutionResult)
    (job : JobConfig) (world : World) (runner : JobRunner) :
    Except AcquireError RunnerResult × World :=
  runWith asWritten system runJob job world runner

/-! ## Taking the lock -/

section Acquire

variable (system : System) (lockDir : String) (job : JobConfig) (disk : FileSystem)

/-- The lock directory can be made and the lock file can be written; if it names a process,
that does not run. -/
def Granted : Prop :=
  ∃ there, disk.mkdir (PurePath.parse lockDir) = .ok there ∧
    (∃ place, there.Leads (lockFile lockDir job.name) place) ∧
      ∀ text pid, there.readText (lockFile lockDir job.name) = .ok text →
        system.pidOf text = some pid → JobLock.pidRunning (system.killPid pid) = .ok false

/-- The lock file names a process that runs (or that `os.kill` answers for with the very
error of a refusal). -/
def Refused : Prop :=
  ∃ there text pid, disk.mkdir (PurePath.parse lockDir) = .ok there ∧
    there.readText (lockFile lockDir job.name) = .ok text ∧ system.pidOf text = some pid ∧
      (system.killPid pid = .returned ∨
        ∃ message, system.killPid pid = .raised (.lockAcquisitionError message))

variable {system lockDir job disk}

theorem acquire_of_granted (granted : Granted system lockDir job disk) :
    ∃ after, LockFile.acquire system { jobName := job.name } lockDir disk =
        (.ok (), { jobName := job.name, held := true }, after) ∧
      after.readText (lockFile lockDir job.name) = .ok (strOf system.getpid) := by
  obtain ⟨there, made, ⟨place, leads⟩, dead⟩ := granted
  rw [LockFile.acquire, made]
  dsimp only
  rcases leads.readText with missing | ⟨text, found⟩
  · rw [LockFile.acquireThere, LockFile.readPid, missing]
    exact LockFile.writePid_of_leads _ _ ⟨place, leads⟩
  · rw [LockFile.acquireThere, LockFile.readPid, found]
    dsimp only
    cases number : system.pidOf text with
    | none => exact LockFile.writePid_of_leads _ _ ⟨place, leads⟩
    | some pid =>
        obtain ⟨cleared, unlinked, leads'⟩ := FileSystem.unlink_of_readText found
        dsimp only
        rw [dead text pid found number]
        dsimp only
        rw [unlinked]
        exact LockFile.writePid_of_leads _ _ leads'

/-- A refusal has no effect but that the lock directory is made. -/
theorem acquire_of_refused (refused : Refused system lockDir job disk) :
    ∃ there message, disk.mkdir (PurePath.parse lockDir) = .ok there ∧
      LockFile.acquire system { jobName := job.name } lockDir disk =
        (.error (.python (.lockAcquisitionError message)), { jobName := job.name }, there) := by
  obtain ⟨there, text, pid, made, found, number, answer⟩ := refused
  rw [LockFile.acquire, made]
  dsimp only
  rw [LockFile.acquireThere, LockFile.readPid, found]
  dsimp only
  rw [number]
  dsimp only
  rcases answer with runs | ⟨message, raised⟩
  · rw [runs]
    exact ⟨there, _, rfl, rfl⟩
  · rw [raised]
    exact ⟨there, message, rfl, rfl⟩

/-- Another exception than a refusal. -/
def OtherwiseRaises (result : LockFile.Result) : Prop :=
  ∃ e lock disk', result = (.error e, lock, disk') ∧
    ∀ message, e ≠ .python (.lockAcquisitionError message)

/-- A file that cannot be read, where none can be written. -/
theorem acquireThere_of_nowhere (system : System) (lock : JobLock) {path : PurePath} {e : FileException}
    (unread : disk.readText path = .error e) (nowhere : ¬ ∃ place, disk.Leads path place) :
    OtherwiseRaises (LockFile.acquireThere system path lock disk) := by
  rw [LockFile.acquireThere]
  rcases LockFile.readPid_of_unread system unread with absent | ⟨escapes, -⟩
  · obtain ⟨e', failed⟩ := LockFile.writePid_of_nowhere system lock nowhere
    rw [absent]
    exact ⟨_, _, _, failed, by simp⟩
  · rw [escapes]
    exact ⟨_, _, _, rfl, by simp⟩

/-- A process that `os.kill` has no answer about. -/
theorem acquireThere_of_unanswered (lock : JobLock) {path : PurePath} {text : String} {pid : Int}
    {e : PyException} (found : disk.readText path = .ok text) (number : system.pidOf text = some pid)
    (raised : system.killPid pid = .raised e) (other : ∀ message, e ≠ .lockAcquisitionError message) :
    OtherwiseRaises (LockFile.acquireThere system path lock disk) := by
  rw [LockFile.acquireThere, LockFile.readPid, found]
  dsimp only
  rw [number]
  dsimp only
  rw [raised]
  exact ⟨_, _, _, rfl, by simpa using other⟩

/-- What is neither granted nor refused is another exception. -/
theorem acquire_of_neither (notGranted : ¬ Granted system lockDir job disk)
    (notRefused : ¬ Refused system lockDir job disk) :
    OtherwiseRaises (LockFile.acquire system { jobName := job.name } lockDir disk) := by
  rw [LockFile.acquire]
  cases made : disk.mkdir (PurePath.parse lockDir) with
  | error e => exact ⟨_, _, _, rfl, by simp⟩
  | ok there =>
      cases found : there.readText (lockFile lockDir job.name) with
      | error e =>
          refine acquireThere_of_nowhere system _ found fun leads => ?_
          refine notGranted ⟨there, made, leads, fun text pid found' => ?_⟩
          rw [found] at found'
          cases found'
      | ok text =>
          obtain ⟨place, leads, -⟩ := FileSystem.leads_of_readText found
          have alive : ∃ pid, system.pidOf text = some pid ∧
              JobLock.pidRunning (system.killPid pid) ≠ .ok false := by
            by_contra dead
            push Not at dead
            refine notGranted ⟨there, made, ⟨place, leads⟩, fun text' pid found' => ?_⟩
            rw [found] at found'
            cases found'
            exact dead pid
          obtain ⟨pid, number, running⟩ := alive
          cases answer : system.killPid pid with
          | returned => exact absurd ⟨there, text, pid, made, found, number, .inl answer⟩ notRefused
          | processLookupError => exact absurd (by rw [answer]; rfl) running
          | permissionError => exact absurd (by rw [answer]; rfl) running
          | raised e =>
              refine acquireThere_of_unanswered _ found number answer ?_
              rintro message rfl
              exact notRefused ⟨there, text, pid, made, found, number, .inr ⟨message, answer⟩⟩

theorem not_refused_of_granted (granted : Granted system lockDir job disk) :
    ¬ Refused system lockDir job disk := by
  intro refused
  obtain ⟨after, acquired, -⟩ := acquire_of_granted granted
  obtain ⟨there, message, -, raised⟩ := acquire_of_refused refused
  rw [acquired] at raised
  cases raised

/-- The call succeeds exactly when the lock is granted. -/
theorem acquire_ok_iff : (LockFile.acquire system { jobName := job.name } lockDir disk).1 = .ok () ↔
    Granted system lockDir job disk := by
  constructor
  · intro acquired
    by_contra notGranted
    by_cases refused : Refused system lockDir job disk
    · obtain ⟨there, message, -, raised⟩ := acquire_of_refused refused
      rw [raised] at acquired
      cases acquired
    · obtain ⟨e, lock, disk', raised, -⟩ := acquire_of_neither notGranted refused
      rw [raised] at acquired
      cases acquired
  · intro granted
    obtain ⟨after, acquired, -⟩ := acquire_of_granted granted
    rw [acquired]

end Acquire

/-! ## What a run should do -/

/-- The result is the one of the execution or, over the limit, a failed version of it. -/
def Carries (timeout : Int) (raw result : ExecutionResult) : Prop :=
  if 0 < timeout ∧ timeout < raw.durationSeconds then
    result.success = false ∧ result.jobName = raw.jobName ∧ result.stdout = raw.stdout
  else result = raw

/-- A run that does not get the lock is a skip without effect, and a run that gets it
executes the job once, gives the lock back and carries the result of the execution. -/
structure Lawful (system : System) (lockDir : String)
    (execution : JobConfig → Except PyException ExecutionResult) (job : JobConfig) (timeout : Int)
    (before : World) (after : Except AcquireError RunnerResult × World) : Prop where
  skips : (LockFile.acquire system { jobName := job.name } lockDir before.disk).1 ≠ .ok () →
    (∃ outcome, after.1 = .ok outcome ∧ outcome.skipped = true ∧ outcome.result = none) ∧
      after.2.executed = before.executed ∧
        -- no file is touched: the lock directory is made, if it is not there
        before.disk.mkdir (PurePath.parse lockDir) = .ok after.2.disk
  executes : (LockFile.acquire system { jobName := job.name } lockDir before.disk).1 = .ok () →
    (after.2.executed = before.executed ++ [job] ∧
        after.2.disk.readText (lockFile lockDir job.name) = .error (.os .notFound)) ∧
      match execution job with
      | .error e => after.1 = .error (.python e)
      | .ok raw => ∃ outcome result, after.1 = .ok outcome ∧ outcome.skipped = false ∧
          outcome.result = some result ∧ Carries timeout raw result

section Run

variable {attributes : Attributes} {system : System}
  {runJob : JobConfig → Except PyException ExecutionResult} {job : JobConfig} {world : World}
  {runner : JobRunner}

/-- **A run that gets the lock** gives it back, however it ends. -/
theorem runWith_of_granted (attributes : Attributes)
    (runJob : JobConfig → Except PyException ExecutionResult)
    (granted : Granted system runner.lockDir job world.disk) :
    ∃ after, runWith attributes system runJob job world runner =
        ((finish attributes { jobName := job.name } (executeWith attributes runJob job
            (runner.timeoutPolicy.timeoutFor job.name) runner)).mapError .python,
          { disk := after, executed := world.executed ++ [job] }) ∧
      after.readText (lockFile runner.lockDir job.name) = .error (.os .notFound) := by
  obtain ⟨locked, acquired, wrote⟩ := acquire_of_granted granted
  obtain ⟨after, unlinked, -⟩ := FileSystem.unlink_of_readText wrote
  have released : LockFile.release (lockFile runner.lockDir job.name)
      { jobName := job.name, held := true } locked = (.ok (), { jobName := job.name }, after) := by
    rw [LockFile.release, if_pos rfl, unlinked]
  refine ⟨after, ?_, FileSystem.readText_unlink wrote unlinked⟩
  rw [runWith, acquired]
  dsimp only
  rw [released]

/-- A run that is refused the lock is a skip without effect. -/
theorem runWith_of_refused (attributes : Attributes)
    (runJob : JobConfig → Except PyException ExecutionResult)
    (refused : Refused system runner.lockDir job world.disk) :
    ∃ there outcome, world.disk.mkdir (PurePath.parse runner.lockDir) = .ok there ∧
      runWith attributes system runJob job world runner =
        (.ok outcome, { disk := there, executed := world.executed }) ∧
      outcome.skipped = true ∧ outcome.result = none := by
  obtain ⟨there, message, made, raised⟩ := acquire_of_refused refused
  refine ⟨there, { result := none, skipped := true, skipReason := message }, made, ?_, rfl, rfl⟩
  rw [runWith, raised]

/-- Another exception of `acquire` is one of the run. -/
theorem runWith_of_neither (attributes : Attributes)
    (runJob : JobConfig → Except PyException ExecutionResult)
    (notGranted : ¬ Granted system runner.lockDir job world.disk)
    (notRefused : ¬ Refused system runner.lockDir job world.disk) :
    ∃ e, (runWith attributes system runJob job world runner).1 = .error e := by
  obtain ⟨e, lock, disk', raised, other⟩ := acquire_of_neither notGranted notRefused
  rw [runWith, raised]
  split
  · rename_i message _ _ same
    cases same
    exact absurd rfl (other message)
  · exact ⟨_, rfl⟩
  · rename_i same
    cases same

/-- With the attributes as they are written nothing is returned. -/
theorem finish_asWritten (lock : JobLock) (result : Except PyException ExecutionResult) :
    ∃ e, finish asWritten lock result = .error e := by
  cases result with
  | error e => exact ⟨e, rfl⟩
  | ok result => exact ⟨_, rfl⟩

/-- A run that is refused is lawful, whatever the attributes. -/
theorem lawful_of_refused (attributes : Attributes)
    (runJob : JobConfig → Except PyException ExecutionResult)
    (refused : Refused system runner.lockDir job world.disk) :
    Lawful system runner.lockDir (runner.execution runJob) job
      (runner.timeoutPolicy.timeoutFor job.name) world
      (runWith attributes system runJob job world runner) := by
  obtain ⟨there, outcome, made, ran, skipped, none_⟩ := runWith_of_refused attributes runJob refused
  have notAcquired := mt acquire_ok_iff.mp fun granted => not_refused_of_granted granted refused
  rw [ran]
  exact ⟨fun _ => ⟨⟨outcome, rfl, skipped, none_⟩, rfl, made⟩,
    fun acquired => absurd acquired notAcquired⟩

/-- ... and one whose execution raises. -/
theorem lawful_of_raised (attributes : Attributes)
    (granted : Granted system runner.lockDir job world.disk) {e : PyException}
    (raised : runner.execution runJob job = .error e) :
    Lawful system runner.lockDir (runner.execution runJob) job
      (runner.timeoutPolicy.timeoutFor job.name) world
      (runWith attributes system runJob job world runner) := by
  obtain ⟨after, ran, removed⟩ := runWith_of_granted attributes runJob granted
  rw [ran]
  refine ⟨fun refused => absurd (acquire_ok_iff.mpr granted) refused,
    fun _ => ⟨⟨rfl, removed⟩, ?_⟩⟩
  rw [raised]
  simp only [executeWith, raised, finish, Except.mapError]

end Run

/-- **When a run is lawful**: the lock is refused, or it is granted and the execution
raises.  No run whose execution returns is, and none whose lock file cannot be written. -/
theorem run_lawful_iff (system : System)
    (runJob : JobConfig → Except PyException ExecutionResult) (job : JobConfig) (world : World)
    (runner : JobRunner) :
    Lawful system runner.lockDir (runner.execution runJob) job
        (runner.timeoutPolicy.timeoutFor job.name) world (run system runJob job world runner) ↔
      Refused system runner.lockDir job world.disk ∨
        Granted system runner.lockDir job world.disk ∧
          ∃ e, runner.execution runJob job = .error e := by
  unfold run
  by_cases granted : Granted system runner.lockDir job world.disk
  · cases executed : runner.execution runJob job with
    | error e =>
        exact iff_of_true (lawful_of_raised asWritten granted executed) (.inr ⟨granted, e, rfl⟩)
    | ok raw =>
        refine iff_of_false (fun lawful => ?_) (by simp [not_refused_of_granted granted])
        obtain ⟨after, ran, -⟩ := runWith_of_granted asWritten runJob granted
        have carried := (lawful.executes (acquire_ok_iff.mpr granted)).2
        rw [executed, ran] at carried
        obtain ⟨outcome, result, returned, -⟩ := carried
        obtain ⟨e, failed⟩ := finish_asWritten { jobName := job.name } (executeWith asWritten runJob job
          (runner.timeoutPolicy.timeoutFor job.name) runner)
        dsimp only at returned
        rw [failed] at returned
        cases returned
  · by_cases refused : Refused system runner.lockDir job world.disk
    · exact iff_of_true (lawful_of_refused asWritten runJob refused) (.inl refused)
    · obtain ⟨e, raised⟩ := runWith_of_neither asWritten runJob granted refused
      refine iff_of_false (fun lawful => ?_) (by simp [granted, refused])
      obtain ⟨⟨outcome, returned, -⟩, -⟩ := lawful.skips (mt acquire_ok_iff.mp granted)
      rw [raised] at returned
      cases returned

/-- The job `obedient` and one whose name has a slash, which has no directory for its lock. -/
def sliced : JobConfig := { Executor.obedient with name := "etl/load" }

/-- Runs in an empty lock directory. -/
def runFresh (job : JobConfig) (timeoutPolicy : TimeoutPolicy) :
    Except AcquireError RunnerResult × World :=
  run LockFile.alone (Executor.runJob Executor.idleSystem) job ⟨LockFile.fresh, []⟩
    { lockDir := "/locks", timeoutPolicy }

/-- A run with the default limit and one without a limit: both execute the job and give
the lock back, and both raise.  A run whose lock file has no directory raises and executes
nothing. -/
theorem finished_run_raises :
    (runFresh Executor.obedient {}).1 = .error (.python
        (.attributeError "'ExecutionResult' object has no attribute 'duration'")) ∧
      (runFresh Executor.obedient { defaultSeconds := 0 }).1 = .error (.python
        (.attributeError "'JobLock' object has no attribute '_lock_path'")) ∧
      (runFresh sliced {}).1 = .error (.file (.os .notFound)) ∧
      (runFresh sliced {}).2.executed = [] ∧
      ¬ Lawful LockFile.alone "/locks" (Executor.runJob Executor.idleSystem) Executor.obedient 3600
        ⟨LockFile.fresh, []⟩ (runFresh Executor.obedient {}) := by
  refine ⟨rfl, rfl, rfl, rfl, fun lawful => ?_⟩
  obtain ⟨-, outcome, result, returned, -⟩ := lawful.executes rfl
  cases returned

/-! ## With attributes that exist -/

/-- The result of an execution is judged as it should be. -/
theorem judge_carries {attributes : Attributes}
    (durations : ∀ raw, attributes.duration raw = .ok raw.durationSeconds)
    (failures : ∀ raw timeout, ∃ result, overTime attributes raw timeout = .ok result ∧
      result.success = false ∧ result.jobName = raw.jobName ∧ result.stdout = raw.stdout)
    (timeout : Int) (raw : ExecutionResult) :
    ∃ result, judge attributes timeout raw = .ok result ∧ Carries timeout raw result := by
  simp only [judge, durations]
  by_cases limited : 0 < timeout
  · rw [if_pos limited]
    by_cases late : timeout < raw.durationSeconds
    · obtain ⟨result, made, failed⟩ := failures raw timeout
      rw [if_pos late]
      refine ⟨result, made, ?_⟩
      rw [Carries, if_pos ⟨limited, late⟩]
      exact failed
    · rw [if_neg late]
      refine ⟨raw, rfl, ?_⟩
      rw [Carries, if_neg fun both => late both.2]
  · rw [if_neg limited]
    refine ⟨raw, rfl, ?_⟩
    rw [Carries, if_neg fun both => limited both.1]

/-- The outcome law holds of every run that is refused the lock or gets it, when the
attributes that are read exist and a failed version of a result can be made. -/
theorem runWith_lawful {attributes : Attributes}
    (durations : ∀ raw, attributes.duration raw = .ok raw.durationSeconds)
    (paths : ∀ lock, ∃ path, attributes.lockPath lock = .ok path)
    (failures : ∀ raw timeout, ∃ result, overTime attributes raw timeout = .ok result ∧
      result.success = false ∧ result.jobName = raw.jobName ∧ result.stdout = raw.stdout)
    {system : System} {job : JobConfig} {world : World} (runner : JobRunner)
    (answered : Refused system runner.lockDir job world.disk ∨
      Granted system runner.lockDir job world.disk)
    (runJob : JobConfig → Except PyException ExecutionResult) :
    Lawful system runner.lockDir (runner.execution runJob) job
      (runner.timeoutPolicy.timeoutFor job.name) world
      (runWith attributes system runJob job world runner) := by
  rcases answered with refused | granted
  · exact lawful_of_refused attributes runJob refused
  · cases executed : runner.execution runJob job with
    | error e => exact lawful_of_raised attributes granted executed
    | ok raw =>
        obtain ⟨after, ran, removed⟩ := runWith_of_granted attributes runJob granted
        rw [ran]
        refine ⟨fun refused => absurd (acquire_ok_iff.mpr granted) refused,
          fun _ => ⟨⟨rfl, removed⟩, ?_⟩⟩
        obtain ⟨path, lockPath⟩ := paths { jobName := job.name }
        obtain ⟨result, judged, carries⟩ := judge_carries durations failures
          (runner.timeoutPolicy.timeoutFor job.name) raw
        simp only [executeWith, executed, judged, finish, lockPath]
        exact ⟨_, result, rfl, rfl, rfl, carries⟩

end JobRunner

end Cronwatch.Jobs
