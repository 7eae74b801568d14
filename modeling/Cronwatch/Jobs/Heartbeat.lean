/-
# Jobs.Heartbeat -- the last success of a job

`HeartbeatEntry` and its age.
-/
import Cronwatch.Runtime.Clock

namespace Cronwatch.Jobs

set_option autoImplicit false

open Cronwatch.Runtime

structure HeartbeatEntry where
  jobName : String
  lastSuccess : DateTime
deriving DecidableEq

namespace HeartbeatEntry

def ageSeconds (now : DateTime) (entry : HeartbeatEntry) : ℚ :=
  totalSeconds (now - entry.lastSuccess)

def isAlive (ttlSeconds : ℚ) (now : DateTime) (entry : HeartbeatEntry) : Bool :=
  entry.ageSeconds now ≤ ttlSeconds

end HeartbeatEntry

end Cronwatch.Jobs
