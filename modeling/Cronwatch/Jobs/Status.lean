/-
# Jobs.Status -- idle, running, succeeded or failed

`JobStatusRegistry` holds the status of each job, and makes one when it is asked for a
job that it does not know.  The times are what `_utcnow` reads at the call.
-/
import Cronwatch.Jobs.Execution
import Cronwatch.Theory.Dict

namespace Cronwatch.Jobs

set_option autoImplicit false

open Cronwatch.Theory Cronwatch.Runtime

inductive JobState where
  | idle
  | running
  | succeeded
  | failed
deriving DecidableEq

structure JobStatus where
  jobName : String
  state : JobState := .idle
  lastStartedAt : Option DateTime := none
  lastFinishedAt : Option DateTime := none
  lastResult : Option ExecutionResult := none
  consecutiveFailures : Nat := 0

namespace JobStatus

def markRunning (now : DateTime) (status : JobStatus) : JobStatus :=
  { status with state := .running, lastStartedAt := some now }

def markFinished (now : DateTime) (result : ExecutionResult) (status : JobStatus) : JobStatus :=
  let status := { status with lastFinishedAt := some now, lastResult := some result }
  if result.success then { status with state := .succeeded, consecutiveFailures := 0 }
  else { status with state := .failed, consecutiveFailures := status.consecutiveFailures + 1 }

def isHealthy (status : JobStatus) : Bool := status.state = .idle ∨ status.state = .succeeded

end JobStatus

structure JobStatusRegistry where
  statuses : Dict String JobStatus := .empty

namespace JobStatusRegistry

/-- The status that `get(job_name)` finds or makes. -/
def getStatus (registry : JobStatusRegistry) (jobName : String) : JobStatus :=
  (registry.statuses.get? jobName).getD { jobName }

def put (jobName : String) (status : JobStatus) (registry : JobStatusRegistry) :
    JobStatusRegistry where
  statuses := registry.statuses.set jobName status

def get (jobName : String) (registry : JobStatusRegistry) : JobStatus × JobStatusRegistry :=
  (registry.getStatus jobName, registry.put jobName (registry.getStatus jobName))

def markRunning (now : DateTime) (jobName : String) (registry : JobStatusRegistry) :
    JobStatusRegistry :=
  registry.put jobName ((registry.getStatus jobName).markRunning now)

def markFinished (now : DateTime) (jobName : String) (result : ExecutionResult)
    (registry : JobStatusRegistry) : JobStatusRegistry :=
  registry.put jobName ((registry.getStatus jobName).markFinished now result)

def allStatuses (registry : JobStatusRegistry) : Dict String JobStatus := registry.statuses

def unhealthyJobs (registry : JobStatusRegistry) : Dict String JobStatus :=
  registry.statuses.filter fun _ status => !status.isHealthy

def reset (jobName : String) (registry : JobStatusRegistry) : JobStatusRegistry where
  statuses := registry.statuses.erase jobName

@[simp] theorem getStatus_put (jobName : String) (status : JobStatus)
    (registry : JobStatusRegistry) (job : String) :
    (registry.put jobName status).getStatus job =
      if job = jobName then status else registry.getStatus job := by
  simp only [getStatus, put, Dict.get?_set]
  split <;> rfl

@[simp] theorem getStatus_reset (jobName : String) (registry : JobStatusRegistry) (job : String) :
    (registry.reset jobName).getStatus job =
      if job = jobName then { jobName := job } else registry.getStatus job := by
  simp only [getStatus, reset, Dict.get?_erase]
  split <;> rfl

end JobStatusRegistry

end Cronwatch.Jobs
