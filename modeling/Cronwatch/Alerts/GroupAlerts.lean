/-
# Alerts.GroupAlerts -- alerts for groups of jobs that fail too often

`evaluate_group_alerts` goes over the summaries of a group report.  A group whose failure rate
has reached the threshold is alerted, and marked once the alert has been sent; a marked group is
left out until it is reset.  An alert whose `send` raises ends the evaluation and marks nothing.
The rate is the one that floats have, which is next to the exact one (`failureRate_near`).

`group_alerts` is about every run of evaluations, each of a report built from jobs and history
entries, and resets, with an alerter that may raise at any call: which groups an evaluation alerts,
and that none is alerted again before a reset.
-/
import Cronwatch.Jobs.GroupReporter
import Cronwatch.Runtime.Binary64
import Cronwatch.Theory.Latch

namespace Cronwatch.Alerts

set_option autoImplicit false

open Cronwatch.Theory Cronwatch.Theory.Loop Cronwatch.Runtime Cronwatch.Jobs

/-- What `send` is given in place of an `ExecutionResult`. -/
structure FakeResult where
  jobName : String
  output : String
  success : Bool := false
  exitCode : Int := 1
  duration : ℚ := 0
deriving DecidableEq

/-- The fields of the policy that its user sets. -/
structure GroupAlertPolicy where
  failureRateThreshold : ℚ := 1 / 2
  minRuns : Int := 1
  alertOncePerGroup : Bool := true

namespace GroupAlertPolicy

/-- A group with its summary. -/
abbrev Group := String × GroupSummary

/-- The field `_alerted` of the policy, and the calls of `send` so far with their outcome. -/
structure State where
  alerted : Dict String Bool := .empty
  tried : List (Group × Bool) := []

/-- The alerter, which may go by the calls made before. -/
structure Env where
  send : List (Group × Bool) → FakeResult → Except PyException Unit

variable (policy : GroupAlertPolicy)

def wasAlerted (groupKey : String) (s : State) : Bool := (s.alerted.get? groupKey).getD false

/-- `1.0 - summary.success_rate`; both the rate and the difference are rounded. -/
def failureRate (summary : GroupSummary) : ℚ := double (1 - double summary.successRate)

/-- The tests of `should_alert` that do not look at `_alerted`. -/
def alarming (summary : GroupSummary) : Bool :=
  if (summary.total : Int) < policy.minRuns then false
  else if failureRate summary < policy.failureRateThreshold then false else true

def shouldAlert (summary : GroupSummary) (s : State) : Bool :=
  if !policy.alarming summary then false
  else if policy.alertOncePerGroup && wasAlerted summary.groupKey s then false
  else true

def markAlerted (groupKey : String) (s : State) : State :=
  { s with alerted := s.alerted.set groupKey true }

def reset (groupKey : Option String) (s : State) : State :=
  match groupKey with
  | none => { s with alerted := .empty }
  | some groupKey => { s with alerted := s.alerted.erase groupKey }

def fakeResult (group : Group) : FakeResult :=
  let (key, summary) := group
  let jobNames := String.intercalate ", " summary.jobNames
  { jobName := s!"group:{key}"
    output := s!"Group: {key}\n" ++ s!"Total runs: {summary.total}\n" ++
      s!"Failures: {summary.failures}\n" ++
      s!"Success rate: {fixed1 (double (double summary.successRate * 100))}%\n" ++
      s!"Jobs: {jobNames}" }

/-- The body of the loop of `evaluate_group_alerts`. -/
def evaluateGroup (env : Env) (group : Group) (s : State) : Except PyException (Option Group) × State :=
  if !policy.shouldAlert group.2 s then (.ok none, s)
  else
    match env.send s.tried (fakeResult group) with
    | .error e => (.error e, { s with tried := s.tried ++ [(group, false)] })
    | .ok () => (.ok (some group), markAlerted group.1 { s with tried := s.tried ++ [(group, true)] })

/-- `evaluate_group_alerts`; the groups that it returns stand with their summaries. -/
def evaluate (env : Env) (report : GroupReport) (s : State) : Except PyException (List Group) × State :=
  loop (policy.evaluateGroup env) Option.toList report.summaries.entries s

def evaluateGroupAlerts (env : Env) (report : GroupReport) (s : State) :
    Except PyException (List String) × State :=
  let answer := policy.evaluate env report s
  (answer.1.map fun groups => groups.map Prod.fst, answer.2)

/-! ## A long run -/

inductive Event where
  | evaluate (jobs : List JobConfig) (entries : List HistoryEntry) (keyFn : JobConfig → String)
  | reset (groupKey : Option String)

structure System where
  state : State := {}
  /-- The attempts and the resets, in order. -/
  log : List (Latch.Entry Group String) := []

variable (env : Env)

/-- The keys that a reset lets go. -/
def lets (groupKey : Option String) (k : String) : Bool :=
  match groupKey with
  | none => true
  | some groupKey => k = groupKey

def System.step (s : System) : Event → System
  | .evaluate jobs entries keyFn =>
      match GroupReport.buildGroupReport jobs entries keyFn with
      | .error _ => s
      | .ok report =>
          let state := (policy.evaluateGroupAlerts env report s.state).2
          { state, log := s.log ++ (state.tried.drop s.state.tried.length).map fun e => .tried e.1 e.2 }
  | .reset groupKey => { state := GroupAlertPolicy.reset groupKey s.state, log := s.log ++ [.reset (lets groupKey)] }

def run (events : List Event) : System := events.foldl (System.step policy env) {}

theorem run_append_single (before : List Event) (event : Event) :
    policy.run env (before ++ [event]) = (policy.run env before).step policy env event := by
  rw [run, List.foldl_append]
  rfl

/-! ## One evaluation -/

theorem wasAlerted_mark (groupKey k : String) (s : State) :
    wasAlerted k (markAlerted groupKey s) = (decide (k = groupKey) || wasAlerted k s) := by
  rw [wasAlerted, markAlerted, Dict.get?_set, wasAlerted]
  by_cases same : k = groupKey <;> simp [same]

theorem wasAlerted_reset (groupKey : Option String) (k : String) (s : State) :
    wasAlerted k (reset groupKey s) = (!lets groupKey k && wasAlerted k s) := by
  cases groupKey with
  | none => simp [wasAlerted, reset, lets]
  | some groupKey =>
      rw [wasAlerted, reset, Dict.get?_erase, lets, wasAlerted]
      by_cases same : k = groupKey <;> simp [same]

/-- A group that stands under its own key, with a failure rate to alert. -/
def Eligible (group : Group) : Prop := policy.alarming group.2 = true ∧ group.2.groupKey = group.1

/-- An eligible group is left out when it is marked, and else marked when its alert is sent. -/
theorem latched (once : policy.alertOncePerGroup = true) :
    Latch.Latched Prod.fst false (policy.evaluateGroup env) (fun s k => wasAlerted k s) State.tried
      policy.Eligible where
  held := by
    rintro ⟨gkey, summary⟩ s ⟨alarms, own⟩ marked
    dsimp only at alarms own marked
    rw [evaluateGroup, shouldAlert]
    simp [alarms, once, own, marked]
  free := by
    rintro ⟨gkey, summary⟩ s ⟨alarms, own⟩ unmarked
    dsimp only at alarms own unmarked
    have alert : policy.shouldAlert summary s = true := by
      rw [shouldAlert]
      simp [alarms, own, unmarked]
    rw [evaluateGroup, alert, Bool.not_true, if_neg Bool.false_ne_true]
    cases env.send s.tried (fakeResult (gkey, summary)) with
    | error e => exact .inr ⟨e, _, rfl, rfl, fun k => by simp [wasAlerted]⟩
    | ok done => exact .inl ⟨_, rfl, rfl, fun k => wasAlerted_mark gkey k _⟩

/-- What an evaluation of a report leaves. -/
theorem left_evaluate (once : policy.alertOncePerGroup = true) {report : GroupReport}
    (own : ∀ group ∈ report.summaries.entries, group.2.groupKey = group.1) (s : State) :
    Latch.Left Prod.fst false (fun k => wasAlerted k s) s.tried
      (Latch.fresh Prod.fst (fun k => wasAlerted k s)
        (report.summaries.entries.filter fun group => policy.alarming group.2))
      (policy.evaluate env report s).1 (fun k => wasAlerted k (policy.evaluate env report s).2)
      (policy.evaluate env report s).2.tried := by
  have skips : ∀ (group : Group) s, policy.alarming group.2 = false →
      ∃ given, policy.evaluateGroup env group s = (.ok given, s) ∧ given.toList = [] := by
    intro group s quiet
    refine ⟨none, ?_, rfl⟩
    rw [evaluateGroup, shouldAlert]
    simp [quiet]
  rw [evaluate, loop_filter skips]
  refine (policy.latched env once).loop_spec (fun group member => ?_) s
  obtain ⟨among, alarms⟩ := List.mem_filter.mp member
  exact ⟨alarms, own group among⟩

/-! ## The run -/

/-- Enough of the entries belong to the group, and their failure rate is high enough. -/
def Alarming (jobs : List JobConfig) (entries : List HistoryEntry) (keyFn : JobConfig → String)
    (gkey : String) : Prop :=
  (∃ job ∈ jobs, keyFn job = gkey) ∧
    let mine := entries.filter fun entry =>
      (GroupReport.nameToKey (groupBy jobs keyFn)).get? entry.jobName = some gkey
    policy.minRuns ≤ mine.length ∧
      policy.failureRateThreshold ≤ failureRate
        { groupKey := gkey, total := mine.length, failures := mine.countP fun entry => !entry.success }

/-- An alert for the group was sent, and the group was not let go since. -/
def AlertedSince (gkey : String) (log : List (Latch.Entry Group String)) : Prop :=
  ∃ before group after, log = before ++ .tried group true :: after ∧ group.1 = gkey ∧
    ∀ which, .reset which ∈ after → which gkey = false

theorem alertedSince_iff (gkey : String) (log : List (Latch.Entry Group String)) :
    Latch.markedIn Prod.fst false gkey log = true ↔ AlertedSince gkey log := by
  rw [Latch.markedIn_iff, AlertedSince]
  constructor
  · rintro ⟨before, group, sent, after, split, same, rfl, kept⟩
    exact ⟨before, group, after, split, same, kept⟩
  · rintro ⟨before, group, after, split, same, kept⟩
    exact ⟨before, group, true, after, split, same, rfl, kept⟩

/-- **The failure rate** is the share of failures, but for the rounding. -/
theorem failureRate_near {summary : GroupSummary} (some_ : summary.total ≠ 0)
    (among : summary.failures ≤ summary.total) :
    |failureRate summary - summary.failures / summary.total| ≤ 2 ^ (-52 : Int) := by
  have positive : (0 : ℚ) < summary.total := Nat.cast_pos.mpr (Nat.pos_of_ne_zero some_)
  have share : 1 - summary.successRate = summary.failures / summary.total := by
    rw [GroupSummary.successRate, if_neg some_, sub_div, div_self positive.ne', sub_sub_cancel]
  have nonneg : (0 : ℚ) ≤ summary.failures / summary.total :=
    div_nonneg (Nat.cast_nonneg _) positive.le
  have atMost : (summary.failures : ℚ) / summary.total ≤ 1 :=
    (div_le_one positive).mpr (Nat.cast_le.mpr among)
  have tiny : (2 : ℚ) ^ (-53 : Int) < 1 := by norm_num
  have rate := double_near_of_lt_two (q := summary.successRate) (by
    rw [abs_lt]
    constructor <;> linarith)
  have low := abs_le.mp rate
  have difference := double_near_of_lt_two (q := 1 - double summary.successRate) (by
    rw [abs_lt]
    constructor <;> linarith)
  rw [failureRate, ← share]
  have high := abs_le.mp difference
  have twice : (2 : ℚ) ^ (-52 : Int) = 2 ^ (-53 : Int) + 2 ^ (-53 : Int) := by norm_num
  rw [twice, abs_le]
  constructor <;> linarith

theorem alarming_iff (summary : GroupSummary) : policy.alarming summary = true ↔
    policy.minRuns ≤ summary.total ∧ policy.failureRateThreshold ≤ failureRate summary := by
  rw [alarming]
  by_cases few : (summary.total : Int) < policy.minRuns
  · simp [few]
  · rw [if_neg few]
    by_cases low : failureRate summary < policy.failureRateThreshold
    · simp [low]
    · simp [low, not_lt.mp few, not_lt.mp low]

/-- The groups of the report that are alarming. -/
theorem mem_alarming_iff (jobs : List JobConfig) (entries : List HistoryEntry) (keyFn : JobConfig → String)
    (gkey : String) :
    (∃ group ∈ (GroupReport.reportOf jobs entries keyFn).summaries.entries,
      policy.alarming group.2 = true ∧ group.1 = gkey) ↔ policy.Alarming jobs entries keyFn gkey := by
  have counts : ∀ gjobs, policy.alarming
      (GroupReport.summaryOf (GroupReport.nameToKey (groupBy jobs keyFn)) entries gkey gjobs) = true ↔
        let mine := entries.filter fun entry =>
          (GroupReport.nameToKey (groupBy jobs keyFn)).get? entry.jobName = some gkey
        policy.minRuns ≤ mine.length ∧ policy.failureRateThreshold ≤ failureRate
          { groupKey := gkey, total := mine.length,
            failures := mine.countP fun entry => !entry.success } := by
    intro gjobs
    rw [alarming_iff, GroupReport.summaryOf, List.countP_eq_length_filter]
    dsimp only
    rw [List.countP_filter]
    rfl
  have groups := (GroupReport.reportOf_conserves jobs entries keyFn).groups gkey
  rw [Alarming, ← groups, Dict.keys, List.mem_map]
  constructor
  · rintro ⟨⟨_, summary⟩, member, alarms, rfl⟩
    obtain ⟨gjobs, is⟩ := GroupReport.mem_entries_reportOf member
    dsimp only at is alarms
    rw [is] at alarms
    exact ⟨⟨_, member, rfl⟩, (counts gjobs).mp alarms⟩
  · rintro ⟨⟨⟨_, summary⟩, member, rfl⟩, enough⟩
    obtain ⟨gjobs, is⟩ := GroupReport.mem_entries_reportOf member
    dsimp only at is
    refine ⟨_, member, ?_, rfl⟩
    rw [is]
    exact (counts gjobs).mpr enough

theorem own_reportOf (jobs : List JobConfig) (entries : List HistoryEntry) (keyFn : JobConfig → String) :
    ∀ group ∈ (GroupReport.reportOf jobs entries keyFn).summaries.entries, group.2.groupKey = group.1 :=
  fun _ member => (GroupReport.reportOf_conserves jobs entries keyFn).keyed _ _
    ((Dict.mem_entries_iff _ _ _).mp member)

/-- The marks are the alerts sent since the last reset. -/
theorem follows_run (once : policy.alertOncePerGroup = true) (events : List Event) :
    Latch.Follows Prod.fst false (policy.run env events).log
      fun k => wasAlerted k (policy.run env events).state := by
  induction events using List.reverseRecOn with
  | nil => exact .start
  | append_singleton before event ih =>
      rw [run_append_single]
      cases event with
      | evaluate jobs entries keyFn =>
          obtain ⟨more, grew, follows⟩ := ih.loop
            (policy.left_evaluate env once (own_reportOf jobs entries keyFn) (policy.run env before).state)
          rw [System.step, GroupReport.buildGroupReport_eq]
          dsimp only [evaluateGroupAlerts]
          rw [grew, List.drop_left]
          exact follows
      | reset groupKey =>
          rw [System.step]
          simp only [wasAlerted_reset]
          exact ih.reset (lets groupKey)

/-- **One alert per group until it is reset.**  After any evaluations and resets, behind an alert
that was sent no other is tried for the group before a reset lets it go; and an evaluation of the
report of any jobs and entries tries the groups, in the order of the report, that fail too often and
have had no alert since they were let go, up to the first alert that fails. -/
theorem group_alerts (once : policy.alertOncePerGroup = true) (events : List Event) :
    let s := policy.run env events
    (∀ before group between group' sent after,
      s.log = before ++ .tried group true :: (between ++ .tried group' sent :: after) →
        group'.1 = group.1 → ∃ which, .reset which ∈ between ∧ which group.1 = true) ∧
    ∀ jobs entries keyFn, ∃ report new, GroupReport.buildGroupReport jobs entries keyFn = .ok report ∧
      new.Sublist report.summaries.entries ∧
      (∀ gkey, gkey ∈ new.map Prod.fst ↔
        policy.Alarming jobs entries keyFn gkey ∧ ¬ AlertedSince gkey s.log) ∧
      Latch.Made s.state.tried new (policy.evaluate env report s.state).1
        (policy.evaluate env report s.state).2.tried := by
  intro s
  have follows := policy.follows_run env once events
  refine ⟨fun before group between group' sent after split same => follows.once split same rfl,
    fun jobs entries keyFn => ?_⟩
  have distinct : (((GroupReport.reportOf jobs entries keyFn).summaries.entries.filter
      fun group => policy.alarming group.2).map Prod.fst).Nodup :=
    (Dict.nodup_keys _).sublist (List.filter_sublist.map Prod.fst)
  have left := policy.left_evaluate env once (own_reportOf jobs entries keyFn) s.state
  rw [Latch.fresh_of_nodup distinct] at left
  refine ⟨_, _, GroupReport.buildGroupReport_eq jobs entries keyFn,
    List.filter_sublist.trans List.filter_sublist, fun gkey => ?_, left.made⟩
  rw [← mem_alarming_iff, ← alertedSince_iff, ← follows.marks]
  simp only [List.mem_map, List.mem_filter, Bool.not_eq_true', Bool.not_eq_true]
  constructor
  · rintro ⟨group, ⟨⟨member, alarms⟩, free⟩, rfl⟩
    exact ⟨⟨group, member, alarms, rfl⟩, free⟩
  · rintro ⟨⟨group, member, alarms, rfl⟩, free⟩
    exact ⟨group, ⟨⟨member, alarms⟩, free⟩, rfl⟩

/-- Two jobs of one tag each. -/
def taggedJobs : List JobConfig :=
  [{ name := "backup", command := "backup.sh", schedule := "0 2 * * *", tags := ["storage"] },
    { name := "site", command := "check.sh", schedule := "* * * * *", tags := ["web"] }]

def ran (jobName : String) (success : Bool) : HistoryEntry where
  jobName := jobName
  success := success
  exitCode := if success then 0 else 1
  duration := 1
  startedAt := "2024-03-01T02:00:00"

/-- One failure in ten runs, and one in two. -/
def tenthAndHalf : List HistoryEntry :=
  List.replicate 9 (ran "backup" true) ++ [ran "backup" false, ran "site" true, ran "site" false]

def firstTag (job : JobConfig) : String := job.tags.headD "untagged"

/-- The first alert fails; it is sent by the second evaluation, not by the third, and again
after a reset. -/
def webEvents : List Event :=
  List.replicate 3 (.evaluate taggedJobs tenthAndHalf firstTag) ++
    [.reset (some "web"), .evaluate taggedJobs tenthAndHalf firstTag]

/-- A threshold of `0.1`: one failure in ten is less, since `1.0 - 0.9` is. -/
def tenth : GroupAlertPolicy where
  failureRateThreshold := double (1 / 10)

def firstFails : Env where
  send := fun tried _ => if tried = [] then .error (.foreign "connection refused") else .ok ()

/-- The group `web` is alerted once until its reset, the group `storage` never. -/
theorem group_alerts_web :
    let s := tenth.run firstFails webEvents
    tenth.alertOncePerGroup = true ∧
      s.state.tried.map (fun e => (e.1.1, e.2)) = [("web", false), ("web", true), ("web", true)] ∧
      (∀ before group between group' sent after,
        s.log = before ++ .tried group true :: (between ++ .tried group' sent :: after) →
          group'.1 = group.1 → ∃ which, .reset which ∈ between ∧ which group.1 = true) ∧
      ¬ tenth.Alarming taggedJobs tenthAndHalf firstTag "storage" ∧
      ∃ report new, GroupReport.buildGroupReport taggedJobs tenthAndHalf firstTag = .ok report ∧
        new.Sublist report.summaries.entries ∧
        (∀ gkey, gkey ∈ new.map Prod.fst ↔ tenth.Alarming taggedJobs tenthAndHalf firstTag gkey ∧
          ¬ AlertedSince gkey s.log) ∧
        Latch.Made s.state.tried new (tenth.evaluate firstFails report s.state).1
          (tenth.evaluate firstFails report s.state).2.tried := by
  intro s
  obtain ⟨once, next⟩ := tenth.group_alerts firstFails rfl webEvents
  refine ⟨rfl, by decide +kernel, once, fun alarming => ?_, next _ _ _⟩
  have low : failureRate { groupKey := "storage", total := 10, failures := 1 } < double (1 / 10) := by
    decide +kernel
  exact absurd alarming.2.2 (not_le.mpr low)

end GroupAlertPolicy

end Cronwatch.Alerts
