/-
# Alerts.Attribution -- whose alert an escalated one is

`EscalatingAlerter` writes the level into the job name, which is the key that the
alerters inside work with.

* Routing: the job is looked up, and the rules are tried, under the decorated name.  A
  result reaches the same channels when no rule tells the job found under the decorated
  name from its own (`sameChannels_of_sameSelection`), and only then where every rule has
  an alerter of its own (`sameSelection_of_sameChannels`).
* Rate limit: every level has a window of its own.  A job stays within the limit when its
  failures in a window have one name or are few enough together (`withinLimit_of_fits`),
  and only then where those of each name are few enough (`fits_of_withinLimit`).

`alertsOf` keeps the times of the alerts forwarded for the results of one job, under
whatever name, which nothing in the code does.
-/
import Cronwatch.Alerts.Escalation
import Cronwatch.Alerts.RateLimit
import Cronwatch.Alerts.Routing
import Cronwatch.Theory.Splits

namespace Cronwatch.Alerts

set_option autoImplicit false

open Cronwatch.Theory Cronwatch.Runtime Cronwatch.Jobs

namespace EscalatingAlerter

variable (upper : String → String) (policy : EscalationPolicy)

/-- The job name under which a failed result after these is handed over. -/
def nameAfter (before : List ExecutionResult) (result : ExecutionResult) : String :=
  decorated upper (policy.levelFor (streak result.jobName before + 1 : Nat)) result.jobName

/-! ## Routing inside -/

section Routing

variable {α : Type}

/-- A routing alerter over alerters that return; the state is the calls it made. -/
def routed (routing : RoutingAlerter α) : Send (List (α × ExecutionResult)) :=
  fun result calls =>
    ((routing.send (fun _ _ => .ok ()) result).1,
      calls ++ (routing.send (fun _ _ => .ok ()) result).2)

/-- Every result of the run reaches the alerters that it reaches without the wrapper. -/
def SameChannels (routing : RoutingAlerter α) (results : List ExecutionResult) : Prop :=
  ∀ before result after, results = before ++ result :: after →
    (((new policy []).sends upper (routed routing) before).send upper (routed routing)
        result).2.inner.map Prod.fst =
      ((new policy []).sends upper (routed routing) before).inner.map Prod.fst ++
        (routing.send (fun _ _ => .ok ()) result).2.map Prod.fst

/-- No rule tells the job found under the decorated name from the job's own. -/
def SameSelection (routing : RoutingAlerter α) (results : List ExecutionResult) : Prop :=
  ∀ before result after, results = before ++ result :: after → ∀ rule ∈ routing.router.rules,
    rule.matches (lookup routing.jobs (nameAfter upper policy before result)) =
      rule.matches (lookup routing.jobs result.jobName)

/-- Every rule has an alerter, which is neither that of another rule nor the default one. -/
structure OwnAlerters (router : JobRouter α) : Prop where
  known : ∀ rule ∈ router.rules, (router.channels.get? rule.channel).isSome
  own : ∀ rule ∈ router.rules, ∀ rule' ∈ router.rules,
    router.channels.get? rule.channel = router.channels.get? rule'.channel → rule = rule'
  notDefault : ∀ rule ∈ router.rules,
    router.channels.get? rule.channel ≠ router.channels.get? router.defaultChannel

theorem routed_send (routing : RoutingAlerter α) (before : List ExecutionResult)
    {result : ExecutionResult} (failed : result.success = false) :
    (((new policy []).sends upper (routed routing) before).send upper (routed routing)
        result).2.inner.map Prod.fst =
      ((new policy []).sends upper (routed routing) before).inner.map Prod.fst ++
        routing.router.alertersFor (lookup routing.jobs (nameAfter upper policy before result)) := by
  rw [send_failed policy [] before failed, routed,
    RoutingAlerter.send_of_returns (fun _ => rfl) routing, List.map_append, List.map_map]
  exact congrArg _ (List.map_id _)

theorem sameChannels_iff_alertersFor (routing : RoutingAlerter α) {results : List ExecutionResult}
    (failing : ∀ result ∈ results, result.success = false) :
    SameChannels upper policy routing results ↔
      ∀ before result after, results = before ++ result :: after →
        routing.router.alertersFor (lookup routing.jobs (nameAfter upper policy before result)) =
          routing.router.alertersFor (lookup routing.jobs result.jobName) := by
  refine forall_congr' fun before => forall_congr' fun result => forall_congr' fun after =>
    forall_congr' fun split => ?_
  have failed : result.success = false := failing result (by simp [split])
  have direct : (routing.send (fun _ _ => .ok ()) result).2.map Prod.fst =
      routing.router.alertersFor (lookup routing.jobs result.jobName) := by
    rw [RoutingAlerter.send_of_returns (fun _ => rfl) routing, List.map_map]
    exact List.map_id _
  rw [routed_send upper policy routing before failed, direct, List.append_cancel_left_eq]

/-- Rules that select alike choose alike. -/
theorem alertersFor_congr {router : JobRouter α} {job job' : RoutedJob}
    (alike : ∀ rule ∈ router.rules, rule.matches job = rule.matches job') :
    router.alertersFor job = router.alertersFor job' := by
  rw [JobRouter.alertersFor, JobRouter.alertersFor, JobRouter.channelsFor, JobRouter.channelsFor,
    List.filter_congr alike]

theorem sameChannels_of_sameSelection (routing : RoutingAlerter α) {results : List ExecutionResult}
    (failing : ∀ result ∈ results, result.success = false)
    (alike : SameSelection upper policy routing results) :
    SameChannels upper policy routing results :=
  (sameChannels_iff_alertersFor upper policy routing failing).mpr
    fun before result after split => alertersFor_congr (alike before result after split)

/-- The alerter of a rule is called for the jobs that the rule matches. -/
theorem mem_alertersFor_iff {router : JobRouter α} (own : OwnAlerters router) {rule : RoutingRule}
    (member : rule ∈ router.rules) {alerter : α}
    (known : router.channels.get? rule.channel = some alerter) (job : RoutedJob) :
    alerter ∈ router.alertersFor job ↔ rule.matches job = true := by
  rw [JobRouter.alertersFor, List.mem_filterMap, JobRouter.channelsFor]
  constructor
  · rintro ⟨channel, chosen, found⟩
    split at chosen
    · rw [List.mem_singleton.mp chosen] at found
      exact absurd (known.trans found.symm) (own.notDefault rule member)
    · obtain ⟨rule', matched, rfl⟩ := List.mem_map.mp chosen
      obtain ⟨member', holds⟩ := List.mem_filter.mp matched
      rwa [own.own rule member rule' member' (known.trans found.symm)]
  · intro holds
    have chosen : rule.channel ∈ (router.rules.filter fun rule => rule.matches job).map
        RoutingRule.channel :=
      List.mem_map_of_mem (List.mem_filter.mpr ⟨member, holds⟩)
    rw [if_neg (List.ne_nil_of_mem chosen)]
    exact ⟨rule.channel, chosen, known⟩

theorem sameSelection_of_sameChannels {routing : RoutingAlerter α}
    (own : OwnAlerters routing.router) {results : List ExecutionResult}
    (failing : ∀ result ∈ results, result.success = false)
    (same : SameChannels upper policy routing results) :
    SameSelection upper policy routing results := by
  intro before result after split rule member
  have alerters := (sameChannels_iff_alertersFor upper policy routing failing).mp same before
    result after split
  obtain ⟨alerter, known⟩ := Option.isSome_iff_exists.mp (own.known rule member)
  rw [Bool.eq_iff_iff, ← mem_alertersFor_iff own member known, alerters,
    mem_alertersFor_iff own member known]

end Routing

/-! ## A rate limit inside -/

/-- The parts of an escalating alerter around a rate-limited one. -/
structure Chain where
  upper : String → String
  policy : EscalationPolicy
  limiter : RateLimiter
  clock : Nat → ℚ
  /-- The alerter behind the limit. -/
  deliver : RateLimitedAlerter.Inner

/-- The times at which these calls recorded an alert, under whatever name. -/
def times (calls : List RateLimitedAlerter.Call) : List ℚ :=
  calls.filterMap fun
    | .record _ now => some now
    | _ => none

namespace Chain

variable (chain : Chain)

def send (result : ExecutionResult) (a : EscalatingAlerter RateLimitedAlerter) :
    EscalatingAlerter RateLimitedAlerter :=
  (a.send chain.upper (fun result a => a.send chain.clock chain.deliver result) result).2

/-- A new alerter after these results. -/
def run (results : List ExecutionResult) : EscalatingAlerter RateLimitedAlerter :=
  (new chain.policy { limiter := chain.limiter }).sends chain.upper
    (fun result a => a.send chain.clock chain.deliver result) results

/-- The alerter with one result more, and the times of the job's alerts with those of it. -/
def observe (jobName : String) (s : EscalatingAlerter RateLimitedAlerter × List ℚ)
    (result : ExecutionResult) : EscalatingAlerter RateLimitedAlerter × List ℚ :=
  let after := chain.send result s.1
  (after,
    if result.jobName = jobName then s.2 ++ times (after.inner.calls.drop s.1.inner.calls.length)
    else s.2)

/-- The times of the alerts forwarded for the results of the job. -/
def alertsOf (jobName : String) (results : List ExecutionResult) : List ℚ :=
  (results.foldl (chain.observe jobName)
    (new chain.policy { limiter := chain.limiter }, [])).2

/-- The window that ends now holds fewer than the limit of these times. -/
def Room (now : ℚ) (alerts : List ℚ) : Prop :=
  (countIn (now - chain.limiter.window) now alerts : Int) < chain.limiter.max

/-- A failed result: whose it is, the name that it is handed over under, and the second
reading of the clock in its `send`, at which its alert is recorded if it is. -/
structure Failure where
  jobName : String
  name : String
  time : ℚ
deriving DecidableEq

/-- The first and the second reading for a result after these. -/
def askedAt (before : List ExecutionResult) : ℚ := chain.clock (chain.run before).inner.reads

def recordedAt (before : List ExecutionResult) : ℚ :=
  chain.clock ((chain.run before).inner.reads + 1)

def failureAfter (before : List ExecutionResult) (result : ExecutionResult) : Option Failure :=
  if result.success then none
  else some { jobName := result.jobName, name := nameAfter chain.upper chain.policy before result,
              time := chain.recordedAt before }

def failures (results : List ExecutionResult) : List Failure :=
  collect chain.failureAfter [] results

/-- The times of those failures that are of a job, or under a name. -/
def timesOf (p : Failure → Bool) (failures : List Failure) : List ℚ :=
  (failures.filter p).map Failure.time

/-- The name under which the result is handed over has room when it is asked for. -/
def NameHasRoom (before : List ExecutionResult) (result : ExecutionResult) : Prop :=
  chain.Room (chain.askedAt before)
    (RateLimitedAlerter.recorded (nameAfter chain.upper chain.policy before result)
      (chain.run before).inner.calls)

/-- The job has room, under all its names together, when the alert is recorded. -/
def JobHasRoom (before : List ExecutionResult) (result : ExecutionResult) : Prop :=
  chain.Room (chain.recordedAt before) (chain.alertsOf result.jobName before)

/-- The failures of the job in the window have the name of this one. -/
def OneName (before : List ExecutionResult) (result : ExecutionResult) : Prop :=
  ∀ f ∈ chain.failures before, f.jobName = result.jobName →
    chain.recordedAt before - chain.limiter.window ≤ f.time →
      f.name = nameAfter chain.upper chain.policy before result

/-- Fewer failures of the job are in the window than the limit. -/
def JobFits (before : List ExecutionResult) (result : ExecutionResult) : Prop :=
  chain.Room (chain.recordedAt before)
    (timesOf (fun f => f.jobName = result.jobName) (chain.failures before))

/-- Fewer failures under the name are in the window, when the result is handed over. -/
def NameFits (before : List ExecutionResult) (result : ExecutionResult) : Prop :=
  chain.Room (chain.askedAt before) (timesOf
    (fun f => f.name = nameAfter chain.upper chain.policy before result) (chain.failures before))

/-- In no window are more alerts of one job forwarded than the limit. -/
def WithinLimit (results : List ExecutionResult) : Prop :=
  ∀ jobName start, (countIn start (start + chain.limiter.window)
    (chain.alertsOf jobName results) : Int) ≤ chain.limiter.max

theorem run_append_single (before : List ExecutionResult) (result : ExecutionResult) :
    chain.run (before ++ [result]) = chain.send result (chain.run before) :=
  sends_append_single _ _ before result _

/-- The alerts of a job, and the run that they are observed in. -/
theorem observed (jobName : String) (results : List ExecutionResult) :
    results.foldl (chain.observe jobName) (new chain.policy { limiter := chain.limiter }, []) =
      (chain.run results, chain.alertsOf jobName results) := by
  refine Prod.ext ?_ rfl
  induction results using List.reverseRecOn with
  | nil => rfl
  | append_singleton before result ih =>
      rw [List.foldl_append, run_append_single, List.foldl_cons, List.foldl_nil]
      exact congrArg (chain.send result) ih

theorem alertsOf_append_single (jobName : String) (before : List ExecutionResult)
    (result : ExecutionResult) : chain.alertsOf jobName (before ++ [result]) =
      if result.jobName = jobName then
        chain.alertsOf jobName before ++
          times ((chain.run (before ++ [result])).inner.calls.drop
            (chain.run before).inner.calls.length)
      else chain.alertsOf jobName before := by
  rw [alertsOf, List.foldl_append, observed, run_append_single]
  rfl

theorem failures_append_single (before : List ExecutionResult) {result : ExecutionResult}
    (failed : result.success = false) :
    chain.failures (before ++ [result]) = chain.failures before ++
      [{ jobName := result.jobName, name := nameAfter chain.upper chain.policy before result,
         time := chain.recordedAt before }] := by
  rw [failures, collect_append_single, List.nil_append, failureAfter, failed]
  rfl

theorem timesOf_append_single (p : Failure → Bool) (front : List Failure) (f : Failure) :
    timesOf p (front ++ [f]) = timesOf p front ++ if p f then [f.time] else [] := by
  rw [timesOf, List.filter_append, List.map_append, ← timesOf]
  cases kept : p f <;> simp [kept]

/-- Of fewer events in a window that starts later there are fewer. -/
theorem Room.of_countIn_le {now : ℚ} {alerts alerts' : List ℚ} {now' : ℚ}
    (room : chain.Room now alerts)
    (fewer : countIn (now' - chain.limiter.window) now' alerts' ≤
      countIn (now - chain.limiter.window) now alerts) : chain.Room now' alerts' := by
  unfold Room at room ⊢
  omega

section Run

variable {chain} {windowSeconds : ℚ} {maxAlerts : Int} (monotone : Monotone chain.clock)
  (created : RateLimiter.new windowSeconds maxAlerts = .ok chain.limiter)

include monotone created

/-- The alerter inside goes through its calls as it does on its own. -/
theorem run_good (results : List ExecutionResult) :
    (chain.run results).inner.Good chain.clock ∧
      (chain.run results).inner.limiter.window = chain.limiter.window ∧
      (chain.run results).inner.limiter.max = chain.limiter.max := by
  induction results using List.reverseRecOn with
  | nil => exact ⟨(RateLimitedAlerter.good_new chain.clock created).2.2, rfl, rfl⟩
  | append_singleton before result ih =>
      obtain ⟨good, window, max⟩ := ih
      rw [run_append_single, send]
      cases succeeded : result.success with
      | true =>
          rw [send_of_success succeeded]
          exact ⟨good, window, max⟩
      | false =>
          rw [send_of_failure succeeded]
          obtain ⟨next, window', max', -⟩ :=
            RateLimitedAlerter.send_spec monotone chain.deliver _ good
          exact ⟨next, window'.trans window, max'.trans max⟩

/-- **One failed result** is recorded when its name has room, at the second reading. -/
theorem alertsOf_cases (before : List ExecutionResult) {result : ExecutionResult}
    (failed : result.success = false) :
    (¬ chain.NameHasRoom before result ∧
        (chain.run (before ++ [result])).inner.reads = (chain.run before).inner.reads + 2 ∧
        (∀ jobName, chain.alertsOf jobName (before ++ [result]) = chain.alertsOf jobName before) ∧
        ∀ name, RateLimitedAlerter.recorded name (chain.run (before ++ [result])).inner.calls =
          RateLimitedAlerter.recorded name (chain.run before).inner.calls) ∨
      chain.NameHasRoom before result ∧
        (chain.run (before ++ [result])).inner.reads = (chain.run before).inner.reads + 3 ∧
        (∀ jobName, chain.alertsOf jobName (before ++ [result]) = chain.alertsOf jobName before ++
          if result.jobName = jobName then [chain.recordedAt before] else []) ∧
        ∀ name, RateLimitedAlerter.recorded name (chain.run (before ++ [result])).inner.calls =
          RateLimitedAlerter.recorded name (chain.run before).inner.calls ++
            if nameAfter chain.upper chain.policy before result = name
              then [chain.recordedAt before] else [] := by
  obtain ⟨good, window, max⟩ := run_good monotone created before
  have room := good.tracks.isAllowed_iff le_rfl (nameAfter chain.upper chain.policy before result)
  rw [window, max] at room
  have inner : (chain.run (before ++ [result])).inner =
      ((chain.run before).inner.send chain.clock chain.deliver (annotate chain.upper result
        (chain.policy.levelFor (streak result.jobName before + 1 : Nat)))).2 := by
    rw [run_append_single]
    exact send_failed chain.policy _ before failed
  have alerts := fun jobName => chain.alertsOf_append_single jobName before result
  rw [inner] at alerts ⊢
  rcases RateLimitedAlerter.send_calls chain.clock chain.deliver (annotate chain.upper result
      (chain.policy.levelFor (streak result.jobName before + 1 : Nat))) (chain.run before).inner with
    ⟨refused, reads, calls⟩ | ⟨allowed, reads, calls⟩
  · refine .inl ⟨fun has => Bool.eq_false_iff.mp refused (room.mpr has), reads, fun jobName => ?_,
      fun name => ?_⟩
    · rw [alerts, calls, List.drop_left]
      simp [times]
    · rw [calls]
      simp [RateLimitedAlerter.recorded]
  · refine .inr ⟨room.mp allowed, reads, fun jobName => ?_, fun name => ?_⟩
    · rw [alerts, calls, List.drop_left]
      split
      · rfl
      · exact (List.append_nil _).symm
    · have named : (annotate chain.upper result (chain.policy.levelFor
          (streak result.jobName before + 1 : Nat))).jobName =
            nameAfter chain.upper chain.policy before result := rfl
      rw [calls, named, RateLimitedAlerter.recorded_append]
      by_cases same : nameAfter chain.upper chain.policy before result = name <;>
        simp [RateLimitedAlerter.recorded, same, recordedAt]

/-- No alert was recorded later than the next reading. -/
theorem alertsOf_past {results : List ExecutionResult}
    (failing : ∀ result ∈ results, result.success = false) (jobName : String) :
    ∀ t ∈ chain.alertsOf jobName results, t ≤ chain.clock (chain.run results).inner.reads := by
  induction results using List.reverseRecOn with
  | nil =>
      rintro t ⟨⟩
  | append_singleton before result ih =>
      have earlier := ih fun result' member => failing result' (List.mem_append_left _ member)
      have failed : result.success = false := failing result (by simp)
      intro t member
      rcases alertsOf_cases monotone created before failed with
        ⟨-, reads, same, -⟩ | ⟨-, reads, added, -⟩
      · rw [same] at member
        rw [reads]
        exact (earlier t member).trans (monotone (by omega))
      · rw [added] at member
        rw [reads]
        rcases List.mem_append.mp member with old | new
        · exact (earlier t old).trans (monotone (by omega))
        · split at new
          · rw [List.mem_singleton.mp new]
            exact monotone (by omega)
          · cases new

/-- One failed result keeps the limit when its alert, if it is forwarded, fits. -/
theorem withinLimit_append_single {before : List ExecutionResult} {result : ExecutionResult}
    (failing : ∀ r ∈ before, r.success = false) (failed : result.success = false) :
    chain.WithinLimit (before ++ [result]) ↔ chain.WithinLimit before ∧
      (chain.NameHasRoom before result → chain.JobHasRoom before result) := by
  rcases alertsOf_cases monotone created before failed with
    ⟨full, -, same, -⟩ | ⟨room, -, added, -⟩
  · simp only [WithinLimit, same, full, false_imp_iff, and_true]
  · have past : ∀ t ∈ chain.alertsOf result.jobName before,
        t ≤ chain.clock ((chain.run before).inner.reads + 1) := by
      intro t member
      exact (alertsOf_past monotone created failing _ t member).trans (monotone (by omega))
    have fits := atMost_append_iff chain.limiter.window_pos.le chain.limiter.max past
    constructor
    · intro within
      have own := within result.jobName
      rw [added, if_pos rfl] at own
      refine ⟨fun jobName => ?_, fun _ => (fits.mp own).2⟩
      by_cases same : result.jobName = jobName
      · rw [← same]
        exact (fits.mp own).1
      · have other := within jobName
        rwa [added, if_neg same, List.append_nil] at other
    · rintro ⟨within, jobRoom⟩ jobName
      rw [added]
      split
      · rename_i same
        rw [← same]
        exact fits.mpr ⟨within result.jobName, jobRoom room⟩
      · rw [List.append_nil]
        exact within jobName

/-- **When a job stays within the limit**: each alert that its name lets through fits among
those of the job. -/
theorem withinLimit_iff {results : List ExecutionResult}
    (failing : ∀ result ∈ results, result.success = false) :
    chain.WithinLimit results ↔ ∀ before result after, results = before ++ result :: after →
      chain.NameHasRoom before result → chain.JobHasRoom before result := by
  induction results using List.reverseRecOn with
  | nil =>
      refine iff_of_true (fun jobName => ?_) (by simp)
      exact atMost_nil (Int.le_trans Int.one_nonneg chain.limiter.max_pos)
  | append_singleton before result ih =>
      have front : ∀ r ∈ before, r.success = false := fun r member =>
        failing r (List.mem_append_left _ member)
      have failed : result.success = false := failing result (by simp)
      rw [withinLimit_append_single monotone created front failed, ih front]
      exact (forall_splits_append_single before result).symm

/-- **The alerts** are some of the failures; the limiter knows them by name. -/
theorem exists_alerts {results : List ExecutionResult}
    (failing : ∀ result ∈ results, result.success = false) :
    ∃ alerts, alerts.Sublist (chain.failures results) ∧
      (∀ jobName, chain.alertsOf jobName results = timesOf (fun f => f.jobName = jobName) alerts) ∧
      ∀ name, RateLimitedAlerter.recorded name (chain.run results).inner.calls =
        timesOf (fun f => f.name = name) alerts := by
  induction results using List.reverseRecOn with
  | nil => exact ⟨[], List.Sublist.refl _, fun _ => rfl, fun _ => rfl⟩
  | append_singleton before result ih =>
      obtain ⟨alerts, sub, ofJob, ofName⟩ :=
        ih fun result' member => failing result' (List.mem_append_left _ member)
      have failed : result.success = false := failing result (by simp)
      rw [failures_append_single chain before failed]
      rcases alertsOf_cases monotone created before failed with
        ⟨-, -, job, name⟩ | ⟨-, -, job, name⟩
      · exact ⟨alerts, sub.trans (List.sublist_append_left _ _), fun jobName => (job _).trans (ofJob _),
          fun name' => (name _).trans (ofName _)⟩
      · refine ⟨_, sub.append (List.Sublist.refl _), fun jobName => ?_, fun name' => ?_⟩
        · rw [job, ofJob, timesOf_append_single]
          simp
        · rw [name, ofName, timesOf_append_single]
          simp

theorem jobHasRoom_of_jobFits {before : List ExecutionResult}
    (failing : ∀ result ∈ before, result.success = false) {result : ExecutionResult}
    (fits : chain.JobFits before result) : chain.JobHasRoom before result := by
  obtain ⟨alerts, sub, ofJob, -⟩ := exists_alerts monotone created failing
  refine Room.of_countIn_le chain fits ?_
  rw [ofJob]
  exact ((sub.filter _).map _).countP_le

/-- Failures of the job that have one name are no more than those the name has. -/
theorem jobHasRoom_of_oneName {before : List ExecutionResult}
    (failing : ∀ result ∈ before, result.success = false) {result : ExecutionResult}
    (oneName : chain.OneName before result) (room : chain.NameHasRoom before result) :
    chain.JobHasRoom before result := by
  obtain ⟨alerts, sub, ofJob, ofName⟩ := exists_alerts monotone created failing
  have past := alertsOf_past monotone created failing result.jobName
  have later : chain.askedAt before ≤ chain.recordedAt before := monotone (Nat.le_succ _)
  refine Room.of_countIn_le chain room ?_
  rw [ofJob] at past ⊢
  rw [ofName, countIn, countIn, timesOf, timesOf, List.countP_map, List.countP_map,
    List.countP_filter, List.countP_filter]
  refine List.countP_mono_left fun f member counted => ?_
  simp only [Function.comp_apply, Bool.and_eq_true, decide_eq_true_eq] at counted ⊢
  obtain ⟨⟨low, -⟩, ofThisJob⟩ := counted
  have time : f.time ∈ timesOf (fun f => f.jobName = result.jobName) alerts :=
    List.mem_map_of_mem (List.mem_filter.mpr ⟨member, by simpa using ofThisJob⟩)
  exact ⟨⟨(sub_le_sub_right later _).trans low, past f.time time⟩,
    oneName f (sub.subset member) ofThisJob low⟩

/-- **What keeps a job within the limit**: at each failure those of the job in the window have
its name, or are fewer than the limit. -/
theorem withinLimit_of_fits {results : List ExecutionResult}
    (failing : ∀ result ∈ results, result.success = false)
    (fits : ∀ before result after, results = before ++ result :: after →
      chain.OneName before result ∨ chain.JobFits before result) : chain.WithinLimit results := by
  refine (withinLimit_iff monotone created failing).mpr ?_
  intro before result after split room
  have front : ∀ r ∈ before, r.success = false := fun r member => failing r (by simp [split, member])
  rcases fits before result after split with oneName | jobFits
  · exact jobHasRoom_of_oneName monotone created front oneName room
  · exact jobHasRoom_of_jobFits monotone created front jobFits

/-- Where the failures under each name are few enough, all of them are alerted. -/
theorem alerts_of_nameFits {results : List ExecutionResult}
    (failing : ∀ result ∈ results, result.success = false)
    (nameFits : ∀ before result after, results = before ++ result :: after →
      chain.NameFits before result) :
    (∀ jobName, chain.alertsOf jobName results =
        timesOf (fun f => f.jobName = jobName) (chain.failures results)) ∧
      ∀ name, RateLimitedAlerter.recorded name (chain.run results).inner.calls =
        timesOf (fun f => f.name = name) (chain.failures results) := by
  induction results using List.reverseRecOn with
  | nil => exact ⟨fun _ => rfl, fun _ => rfl⟩
  | append_singleton before result ih =>
      obtain ⟨front, here⟩ := (forall_splits_append_single before result).mp nameFits
      obtain ⟨ofJob, ofName⟩ :=
        ih (fun result' member => failing result' (List.mem_append_left _ member)) front
      have failed : result.success = false := failing result (by simp)
      have room : chain.NameHasRoom before result := by
        rw [NameHasRoom, ofName]
        exact here
      rw [failures_append_single chain before failed]
      rcases alertsOf_cases monotone created before failed with
        ⟨full, -, -, -⟩ | ⟨-, -, job, name⟩
      · exact absurd room full
      · constructor
        · intro jobName
          rw [job, ofJob, timesOf_append_single]
          simp
        · intro name'
          rw [name, ofName, timesOf_append_single]
          simp

/-- ... and then the job is within the limit only if its failures fit together. -/
theorem fits_of_withinLimit {results : List ExecutionResult}
    (failing : ∀ result ∈ results, result.success = false)
    (nameFits : ∀ before result after, results = before ++ result :: after →
      chain.NameFits before result) (within : chain.WithinLimit results) :
    ∀ before result after, results = before ++ result :: after →
      chain.JobFits before result := by
  intro before result after split
  have front : ∀ r ∈ before, r.success = false := fun r member => failing r (by simp [split, member])
  obtain ⟨ofJob, ofName⟩ := alerts_of_nameFits monotone created front fun b r a split' =>
    nameFits b r (a ++ result :: after) (by simp [split, split'])
  have room : chain.NameHasRoom before result := by
    rw [NameHasRoom, ofName]
    exact nameFits before result after split
  have jobRoom := (withinLimit_iff monotone created failing).mp within before result after split room
  rwa [JobHasRoom, ofJob] at jobRoom

end Run

end Chain

/-- **When escalation keeps the attribution**, in every run of failed results.  A routing
alerter inside reaches the same channels when no rule tells the decorated name from the
job's own, and only then where every rule has an alerter of its own.  A rate-limited one
keeps to the limit of a job when at each failure those of the job in the window have its
name or are fewer than the limit, and only then where those under each name are. -/
theorem attribution_of_fits {α : Type} (routing : RoutingAlerter α) {chain : Chain}
    (monotone : Monotone chain.clock) {windowSeconds : ℚ} {maxAlerts : Int}
    (created : RateLimiter.new windowSeconds maxAlerts = .ok chain.limiter)
    {results : List ExecutionResult} (failing : ∀ result ∈ results, result.success = false) :
    ((SameSelection chain.upper chain.policy routing results →
        SameChannels chain.upper chain.policy routing results) ∧
      (OwnAlerters routing.router → SameChannels chain.upper chain.policy routing results →
        SameSelection chain.upper chain.policy routing results)) ∧
    ((∀ before result after, results = before ++ result :: after →
        chain.OneName before result ∨ chain.JobFits before result) → chain.WithinLimit results) ∧
    ((∀ before result after, results = before ++ result :: after → chain.NameFits before result) →
      chain.WithinLimit results → ∀ before result after, results = before ++ result :: after →
        chain.OneName before result ∨ chain.JobFits before result) :=
  ⟨⟨sameChannels_of_sameSelection chain.upper chain.policy routing failing,
      fun own => sameSelection_of_sameChannels chain.upper chain.policy own failing⟩,
    Chain.withinLimit_of_fits monotone created failing,
    fun nameFits within before result after split =>
      .inr (Chain.fits_of_withinLimit monotone created failing nameFits within before result after
        split)⟩

/-- `str.upper`, on the names of the levels below. -/
def shout (level : String) : String := if level = "warning" then "WARNING" else "CRITICAL"

def twoLevels : EscalationPolicy where
  levels := [⟨"warning", 1⟩, ⟨"critical", 3⟩]

/-- Two alerts in ten seconds, on a clock that shows a second more at each reading. -/
def twoAlertChain : Chain where
  upper := shout
  policy := twoLevels
  limiter := RateLimitedAlerter.twoInTenSeconds
  clock := fun n => n
  deliver := fun _ _ => .ok ()

open RateLimitedAlerter

/-- The job `backup`, which is found under the decorated names as well. -/
def nightJobs : Dict String JobConfig :=
  let backup : JobConfig :=
    { name := "backup", command := "backup.sh", schedule := "0 2 * * *", tags := ["night"] }
  ((Dict.empty.set "backup" backup).set "[WARNING] backup" backup).set "[CRITICAL] backup" backup

/-- A rule for its tag and a rule for another job, with alerters of their own. -/
def byTag : RoutingAlerter String where
  router :=
    { rules := [{ tag := some "night", channel := "ops" },
        { jobName := some "report", channel := "reports" }]
      channels := ((Dict.empty.set "ops" "ops").set "reports" "reports").set "default" "default" }
  jobs := nightJobs

/-- Critical from the fourth failure on, which comes a hundred seconds after the third. -/
def lateCritical : Chain where
  upper := shout
  policy := { levels := [⟨"warning", 1⟩, ⟨"critical", 4⟩] }
  limiter := RateLimitedAlerter.twoInTenSeconds
  clock := fun n => (if n < 8 then n else n + 100 : Nat)
  deliver := fun _ _ => .ok ()

theorem lateCritical_monotone : Monotone lateCritical.clock := by
  intro n m le
  refine Nat.cast_le.mpr ?_
  split <;> split <;> omega

def fiveFailures : List ExecutionResult := List.replicate 5 backupFailed

/-- Five failures through two levels: the third finds no room, the critical ones find the
window empty, and all of them reach the channel of the tag. -/
theorem late_levels_attributed : OwnAlerters byTag.router ∧
    SameSelection shout lateCritical.policy byTag fiveFailures ∧
    SameChannels shout lateCritical.policy byTag fiveFailures ∧
    lateCritical.alertsOf "backup" fiveFailures = [1, 4, 109, 112] ∧
    lateCritical.WithinLimit fiveFailures := by
  have alike : SameSelection shout lateCritical.policy byTag fiveFailures :=
    (forall_splits_iff_take _).mpr (by decide +kernel)
  obtain ⟨⟨channels, -⟩, limit, -⟩ := attribution_of_fits byTag lateCritical_monotone
    (show RateLimiter.new 10 2 = .ok lateCritical.limiter from new_twoInTenSeconds)
    (show ∀ result ∈ fiveFailures, result.success = false by decide)
  have fits := (forall_splits_iff_take (P := fun before result =>
    lateCritical.OneName before result ∨ lateCritical.JobFits before result) fiveFailures).mpr
      (by unfold Chain.OneName Chain.JobFits Chain.Room; decide +kernel)
  exact ⟨⟨by decide +kernel, by decide +kernel, by decide +kernel⟩, alike, channels alike,
    by decide +kernel, limit fits⟩

/-- A router with one rule, for the job `backup` by its name. -/
def byName : RoutingAlerter String where
  router :=
    { rules := [{ jobName := some "backup", channel := "ops" }]
      channels := (Dict.empty.set "ops" "ops").set "default" "default" }

/-- The first failure of `backup` reaches another channel than without the wrapper; and
with a limit of two, three failures in a row are alerted within ten seconds. -/
theorem escalated_job_lost :
    (byName.send (fun _ _ => .ok ()) backupFailed).2.map Prod.fst = ["ops"] ∧
      ((new twoLevels []).send shout (routed byName) backupFailed).2.inner.map Prod.fst =
        ["default"] ∧
      ¬ SameChannels shout twoLevels byName [backupFailed] ∧
      twoAlertChain.alertsOf "backup" [backupFailed, backupFailed, backupFailed] = [1, 4, 7] ∧
      ¬ twoAlertChain.WithinLimit [backupFailed, backupFailed, backupFailed] := by
  have direct : (byName.send (fun _ _ => .ok ()) backupFailed).2.map Prod.fst = ["ops"] := by
    decide +kernel
  have wrapped : ((new twoLevels []).send shout (routed byName) backupFailed).2.inner.map
      Prod.fst = ["default"] := by
    decide +kernel
  have alerts : twoAlertChain.alertsOf "backup" [backupFailed, backupFailed, backupFailed] =
      [1, 4, 7] := by
    decide +kernel
  refine ⟨direct, wrapped, fun same => ?_, alerts, fun within => ?_⟩
  · have channels := same [] backupFailed [] rfl
    rw [direct] at channels
    exact absurd (wrapped.symm.trans channels) (by decide)
  · have most := within "backup" 0
    rw [alerts] at most
    revert most
    decide +kernel

end EscalatingAlerter

end Cronwatch.Alerts
