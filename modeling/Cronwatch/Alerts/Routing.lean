/-
# Alerts.Routing -- rules that choose the channels of an alert

A `JobRouter` collects the channels of all rules that match a job, or takes the default
channel, and looks the alerters up by channel.  `RoutingAlerter.send` looks the job of a
result up by its name and calls the alerters in turn; the first that raises ends it.
-/
import Cronwatch.Jobs.Config
import Cronwatch.Jobs.Execution

namespace Cronwatch.Alerts

set_option autoImplicit false

open Cronwatch.Theory Cronwatch.Runtime Cronwatch.Jobs

/-- What the rules read of a job. -/
structure RoutedJob where
  name : String
  tags : List String := []
  labels : Dict String String := .empty

namespace RoutedJob

def ofConfig (job : JobConfig) : RoutedJob where
  name := job.name
  tags := job.tags
  labels := job.labels

/-- `_NameOnlyJob`. -/
def nameOnly (name : String) : RoutedJob where
  name := name

end RoutedJob

/-- What a rule selects jobs by. -/
structure Selector where
  tag : Option String := none
  labelKey : Option String := none
  labelValue : Option String := none
  jobName : Option String := none
deriving DecidableEq

/-- The job name decides, else the tag, else the label. -/
def Selector.matches (job : RoutedJob) (selector : Selector) : Bool :=
  match selector.jobName with
  | some jobName => job.name = jobName
  | none =>
      match selector.tag with
      | some tag => tag ∈ job.tags
      | none =>
          match selector.labelKey with
          | some labelKey =>
              match job.labels.get? labelKey with
              | none => false
              | some value =>
                  match selector.labelValue with
                  | some labelValue => value = labelValue
                  | none => true
          | none => false

structure RoutingRule extends Selector where
  channel : String
deriving DecidableEq

/-- Alerters are of any type `α`. -/
structure JobRouter (α : Type) where
  rules : List RoutingRule := []
  defaultChannel : String := "default"
  channels : Dict String α := .empty

namespace JobRouter

variable {α : Type}

def channelsFor (job : RoutedJob) (router : JobRouter α) : List String :=
  let matched := (router.rules.filter fun rule => rule.matches job).map RoutingRule.channel
  if matched = [] then [router.defaultChannel] else matched

def alertersFor (job : RoutedJob) (router : JobRouter α) : List α :=
  (router.channelsFor job).filterMap router.channels.get?

end JobRouter

/-- The job of this name, or a stand-in for it. -/
def lookup (jobs : Dict String JobConfig) (jobName : String) : RoutedJob :=
  match jobs.get? jobName with
  | some job => .ofConfig job
  | none => .nameOnly jobName

structure RoutingAlerter (α : Type) where
  router : JobRouter α
  jobs : Dict String JobConfig := .empty

namespace RoutingAlerter

variable {α : Type}

def jobFor (jobName : String) (routing : RoutingAlerter α) : RoutedJob :=
  lookup routing.jobs jobName

/-- `for alerter in alerters: alerter.send(result)`, and the calls it makes. -/
def sendLoop (deliver : α → ExecutionResult → Except PyException Unit) (result : ExecutionResult) :
    List α → Except PyException Unit × List (α × ExecutionResult)
  | [] => (.ok (), [])
  | alerter :: rest =>
      match deliver alerter result with
      | .error e => (.error e, [(alerter, result)])
      | .ok () =>
          ((sendLoop deliver result rest).1, (alerter, result) :: (sendLoop deliver result rest).2)

def send (deliver : α → ExecutionResult → Except PyException Unit) (result : ExecutionResult)
    (routing : RoutingAlerter α) : Except PyException Unit × List (α × ExecutionResult) :=
  sendLoop deliver result (routing.router.alertersFor (routing.jobFor result.jobName))

/-- Alerters that return are all called. -/
theorem send_of_returns {deliver : α → ExecutionResult → Except PyException Unit}
    {result : ExecutionResult} (returns : ∀ alerter, deliver alerter result = .ok ())
    (routing : RoutingAlerter α) : routing.send deliver result =
      (.ok (), (routing.router.alertersFor (routing.jobFor result.jobName)).map fun alerter =>
        (alerter, result)) := by
  unfold send
  induction routing.router.alertersFor (routing.jobFor result.jobName) with
  | nil => rfl
  | cons alerter rest ih =>
      rw [sendLoop, returns, ih]
      rfl

end RoutingAlerter

end Cronwatch.Alerts
