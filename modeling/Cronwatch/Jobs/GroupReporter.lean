/-
# Jobs.GroupReporter -- counts of runs for groups of jobs

`build_group_report` puts the jobs into groups by a key, maps every job name to the group
of the last job with it, and counts each entry in the group of its name.  So a name that
stands in two groups is counted in one of them (`buildGroupReport_eq`).

`buildGroupReport_conserves`: no entry of a known job is dropped or counted twice.  Success
rates are exact quotients.
-/
import Mathlib.Algebra.Order.Ring.Rat
import Mathlib.Data.List.MinMax
import Cronwatch.Jobs.Config
import Cronwatch.Jobs.History
import Cronwatch.Runtime.Json
import Cronwatch.Theory.Buckets

namespace Cronwatch.Jobs

set_option autoImplicit false

open Cronwatch.Theory Cronwatch.Runtime

/-- `group_by(jobs, key)`. -/
def groupBy (jobs : List JobConfig) (key : JobConfig → String) : Dict String (List JobConfig) :=
  buckets key jobs

structure GroupSummary where
  groupKey : String
  total : Nat := 0
  failures : Nat := 0
  jobNames : List String := []

namespace GroupSummary

def successRate (summary : GroupSummary) : ℚ :=
  if summary.total = 0 then 1 else (summary.total - summary.failures) / summary.total

def hasFailures (summary : GroupSummary) : Bool := 0 < summary.failures

/-- One entry more. -/
def count (entry : HistoryEntry) (summary : GroupSummary) : GroupSummary :=
  { summary with
    total := summary.total + 1
    failures := if entry.success then summary.failures else summary.failures + 1 }

end GroupSummary

structure GroupReport where
  summaries : Dict String GroupSummary := .empty

namespace GroupReport

/-- The first group with the least success rate. -/
def worstGroup (report : GroupReport) : Option String :=
  (report.summaries.entries.argmin fun e => e.2.successRate).map Prod.fst

/-- The group of each job name. -/
def nameToKey (groups : Dict String (List JobConfig)) : Dict String String :=
  groups.entries.foldl
    (fun names e => e.2.foldl (fun names job => names.set job.name e.1) names) .empty

/-- The summaries before anything is counted. -/
def start (groups : Dict String (List JobConfig)) : Dict String GroupSummary :=
  groups.mapEntries fun gkey gjobs => { groupKey := gkey, jobNames := gjobs.map JobConfig.name }

/-- One turn of the loop over the entries. -/
def countEntry (names : Dict String String) (summaries : Dict String GroupSummary)
    (entry : HistoryEntry) : Except PyException (Dict String GroupSummary) :=
  match names.get? entry.jobName with
  | none => .ok summaries
  | some gkey =>
      match summaries.get? gkey with
      | none => .error (keyError gkey)
      | some summary => .ok (summaries.set gkey (summary.count entry))

def buildGroupReport (jobs : List JobConfig) (entries : List HistoryEntry)
    (keyFn : JobConfig → String) : Except PyException GroupReport :=
  let groups := groupBy jobs keyFn
  (entries.foldlM (countEntry (nameToKey groups)) (start groups)).map GroupReport.mk

/-! ## The group of a name -/

theorem nameToKey_eq (groups : Dict String (List JobConfig)) :
    nameToKey groups =
      (groups.entries.flatMap fun e => e.2.map fun job => (job.name, e.1)).foldl
        (fun names e => names.set e.1 e.2) .empty := by
  rw [nameToKey, List.foldl_flatMap]
  simp only [List.foldl_map]

/-- A name leads to one of the groups. -/
theorem mem_keys_of_nameToKey {groups : Dict String (List JobConfig)} {name gkey : String}
    (found : (nameToKey groups).get? name = some gkey) : gkey ∈ groups.keys := by
  rw [nameToKey_eq] at found
  rcases Dict.get?_foldl_set found with member | impossible
  · obtain ⟨e, among, paired⟩ := List.mem_flatMap.mp member
    obtain ⟨job, -, same⟩ := List.mem_map.mp paired
    cases same
    exact List.mem_map_of_mem among
  · cases impossible

/-- The names that lead to a group are those of the jobs. -/
theorem nameToKey_isSome_iff (jobs : List JobConfig) (keyFn : JobConfig → String) (name : String) :
    ((nameToKey (groupBy jobs keyFn)).get? name).isSome ↔ name ∈ jobs.map JobConfig.name := by
  have names : ((groupBy jobs keyFn).entries.flatMap fun e =>
      e.2.map fun job => (job.name, e.1)).map Prod.fst =
        ((groupBy jobs keyFn).entries.flatMap Prod.snd).map JobConfig.name := by
    rw [List.map_flatMap, List.map_flatMap]
    simp only [List.map_map, Function.comp_def]
  have perm := (perm_buckets keyFn jobs).map JobConfig.name
  rw [← Dict.mem_keys_iff, nameToKey_eq, Dict.mem_keys_foldl_set, names, ← perm.mem_iff]
  simp [Dict.keys, Dict.empty, groupBy]

/-! ## What the report counts -/

/-- The summary of a group once these entries are counted. -/
def summaryOf (names : Dict String String) (entries : List HistoryEntry) (gkey : String)
    (gjobs : List JobConfig) : GroupSummary where
  groupKey := gkey
  total := entries.countP fun entry => names.get? entry.jobName = some gkey
  failures := entries.countP fun entry => !entry.success && names.get? entry.jobName = some gkey
  jobNames := gjobs.map JobConfig.name

theorem summaryOf_append_of_eq {names : Dict String String} (before : List HistoryEntry)
    {entry : HistoryEntry} {gkey : String} (here : names.get? entry.jobName = some gkey)
    (gjobs : List JobConfig) :
    summaryOf names (before ++ [entry]) gkey gjobs = (summaryOf names before gkey gjobs).count entry := by
  cases succeeded : entry.success <;>
    simp [summaryOf, GroupSummary.count, List.countP_append, here, succeeded]

theorem summaryOf_append_of_ne {names : Dict String String} (before : List HistoryEntry)
    {entry : HistoryEntry} {gkey : String} (elsewhere : names.get? entry.jobName ≠ some gkey) :
    summaryOf names (before ++ [entry]) gkey = summaryOf names before gkey := by
  funext gjobs
  simp [summaryOf, List.countP_append, elsewhere]

/-- **The loop** counts every entry in the group of its name, and never misses a group. -/
theorem foldlM_countEntry (groups : Dict String (List JobConfig)) (entries : List HistoryEntry) :
    entries.foldlM (countEntry (nameToKey groups)) (start groups) =
      .ok (groups.mapEntries (summaryOf (nameToKey groups) entries)) := by
  induction entries using List.reverseRecOn with
  | nil =>
      have zero : summaryOf (nameToKey groups) [] = fun gkey gjobs =>
          { groupKey := gkey, jobNames := gjobs.map JobConfig.name } := rfl
      rw [zero]
      rfl
  | append_singleton before entry ih =>
      rw [List.foldlM_append, ih]
      show (countEntry (nameToKey groups)
        (groups.mapEntries (summaryOf (nameToKey groups) before)) entry >>= pure) = _
      rw [bind_pure, countEntry]
      cases here : (nameToKey groups).get? entry.jobName with
      | none =>
          have same : summaryOf (nameToKey groups) (before ++ [entry]) =
              summaryOf (nameToKey groups) before := by
            funext gkey
            exact summaryOf_append_of_ne before (by rw [here]; simp)
          rw [same]
      | some gkey =>
          obtain ⟨gjobs, held⟩ := Option.isSome_iff_exists.mp
            ((Dict.mem_keys_iff _ _).mp (mem_keys_of_nameToKey here))
          dsimp only
          rw [Dict.get?_mapEntries, held, Option.map_some]
          dsimp only
          rw [← summaryOf_append_of_eq before here gjobs]
          refine congrArg _ (Dict.set_mapEntries held fun gkey' other => ?_)
          exact summaryOf_append_of_ne before (by rw [here]; simpa using fun eq => other eq.symm)

def reportOf (jobs : List JobConfig) (entries : List HistoryEntry)
    (keyFn : JobConfig → String) : GroupReport where
  summaries := (groupBy jobs keyFn).mapEntries
    (summaryOf (nameToKey (groupBy jobs keyFn)) entries)

theorem buildGroupReport_eq (jobs : List JobConfig) (entries : List HistoryEntry)
    (keyFn : JobConfig → String) :
    buildGroupReport jobs entries keyFn = .ok (reportOf jobs entries keyFn) := by
  rw [buildGroupReport, foldlM_countEntry]
  rfl

/-- **A report conserves** the jobs and the entries of known jobs. -/
structure Conserves (jobs : List JobConfig) (entries : List HistoryEntry)
    (keyFn : JobConfig → String) (report : GroupReport) : Prop where
  groups : ∀ gkey, gkey ∈ report.summaries.keys ↔ ∃ job ∈ jobs, keyFn job = gkey
  keyed : ∀ gkey summary, report.summaries.get? gkey = some summary → summary.groupKey = gkey
  total : (report.summaries.entries.map fun e => e.2.total).sum =
    entries.countP fun entry => entry.jobName ∈ jobs.map JobConfig.name
  failures : (report.summaries.entries.map fun e => e.2.failures).sum =
    entries.countP fun entry => !entry.success && entry.jobName ∈ jobs.map JobConfig.name
  bounded : ∀ e ∈ report.summaries.entries, e.2.failures ≤ e.2.total
  names : (report.summaries.entries.flatMap fun e => e.2.jobNames).Perm (jobs.map JobConfig.name)
  worst : match report.worstGroup with
    | none => jobs = []
    | some gkey => ∃ summary, report.summaries.get? gkey = some summary ∧
        ∀ e ∈ report.summaries.entries, summary.successRate ≤ e.2.successRate

/-- Every summary of the report is that of a group. -/
theorem mem_entries_reportOf {jobs : List JobConfig} {entries : List HistoryEntry}
    {keyFn : JobConfig → String} {e : String × GroupSummary}
    (member : e ∈ (reportOf jobs entries keyFn).summaries.entries) :
    ∃ gjobs, e.2 = summaryOf (nameToKey (groupBy jobs keyFn)) entries e.1 gjobs := by
  obtain ⟨e', -, rfl⟩ := List.mem_map.mp member
  exact ⟨e'.2, rfl⟩

/-- Counting by groups is counting by names. -/
theorem sum_groups (jobs : List JobConfig) (entries : List HistoryEntry)
    (keyFn : JobConfig → String) (p : HistoryEntry → Bool) :
    ((groupBy jobs keyFn).entries.map fun e => entries.countP fun entry =>
      p entry && (nameToKey (groupBy jobs keyFn)).get? entry.jobName = some e.1).sum =
        entries.countP fun entry => p entry && entry.jobName ∈ jobs.map JobConfig.name := by
  have distinct : ((groupBy jobs keyFn).keys.map some).Nodup :=
    (groupBy jobs keyFn).nodup_keys.map (Option.some_injective _)
  have byKey : ((groupBy jobs keyFn).entries.map fun e => entries.countP fun entry =>
      p entry && (nameToKey (groupBy jobs keyFn)).get? entry.jobName = some e.1) =
        ((groupBy jobs keyFn).keys.map some).map fun gkey => entries.countP fun entry =>
          p entry && (nameToKey (groupBy jobs keyFn)).get? entry.jobName = gkey := by
    rw [List.map_map, Dict.keys, List.map_map]
    rfl
  rw [byKey, sum_countP _ p entries distinct]
  refine congrArg (fun q => entries.countP q) (funext fun entry =>
    congrArg (p entry && ·) (decide_eq_decide.mpr ?_))
  rw [← nameToKey_isSome_iff jobs keyFn]
  cases found : (nameToKey (groupBy jobs keyFn)).get? entry.jobName with
  | none => simp
  | some gkey =>
      have among := List.mem_map_of_mem (f := some) (mem_keys_of_nameToKey found)
      simpa using among

/-- The worst group is one of the report's, and no group is worse. -/
theorem worstGroup_spec (report : GroupReport) :
    match report.worstGroup with
    | none => report.summaries.entries = []
    | some gkey => ∃ summary, report.summaries.get? gkey = some summary ∧
        ∀ e ∈ report.summaries.entries, summary.successRate ≤ e.2.successRate := by
  rw [worstGroup]
  cases least : report.summaries.entries.argmin fun e => e.2.successRate with
  | none => exact List.argmin_eq_none.mp least
  | some e =>
      have found := (Dict.mem_entries_iff _ e.1 e.2).mp (List.argmin_mem least)
      exact ⟨e.2, found, fun e' member =>
        List.le_of_mem_argmin (f := fun e : String × GroupSummary => e.2.successRate) member least⟩

theorem reportOf_conserves (jobs : List JobConfig) (entries : List HistoryEntry)
    (keyFn : JobConfig → String) : Conserves jobs entries keyFn (reportOf jobs entries keyFn) where
  groups := by
    intro gkey
    have same : (reportOf jobs entries keyFn).summaries.keys = (groupBy jobs keyFn).keys := by
      rw [Dict.keys, reportOf, Dict.entries_mapEntries, List.map_map]
      rfl
    rw [same]
    exact mem_keys_buckets keyFn jobs gkey
  keyed := by
    intro gkey summary found
    obtain ⟨gjobs, is⟩ := mem_entries_reportOf ((Dict.mem_entries_iff _ _ _).mpr found)
    have same : summary = _ := is
    rw [same]
    rfl
  total := by
    have counted := sum_groups jobs entries keyFn fun _ => true
    simp only [Bool.true_and] at counted
    rw [reportOf, Dict.entries_mapEntries, List.map_map]
    exact counted
  failures := by
    have counted := sum_groups jobs entries keyFn fun entry => !entry.success
    rw [reportOf, Dict.entries_mapEntries, List.map_map]
    exact counted
  bounded := by
    intro e member
    obtain ⟨gjobs, is⟩ := mem_entries_reportOf member
    rw [is]
    refine List.countP_mono_left fun entry _ counted => ?_
    rw [Bool.and_eq_true] at counted
    exact counted.2
  names := by
    have perm := (perm_buckets keyFn jobs).map JobConfig.name
    rw [List.map_flatMap] at perm
    rw [reportOf, Dict.entries_mapEntries, List.flatMap_map]
    exact perm
  worst := by
    have worst := worstGroup_spec (reportOf jobs entries keyFn)
    split at worst
    · have empty : (groupBy jobs keyFn).entries = [] := by
        rwa [reportOf, Dict.entries_mapEntries, List.map_eq_nil_iff] at worst
      have perm := perm_buckets keyFn jobs
      rw [groupBy] at empty
      rw [empty] at perm
      exact perm.nil_eq.symm
    · exact worst

/-- **Building a report** never raises, and the report conserves. -/
theorem buildGroupReport_conserves (jobs : List JobConfig) (entries : List HistoryEntry)
    (keyFn : JobConfig → String) :
    ∃ report, buildGroupReport jobs entries keyFn = .ok report ∧
      Conserves jobs entries keyFn report :=
  ⟨_, buildGroupReport_eq jobs entries keyFn, reportOf_conserves jobs entries keyFn⟩

end GroupReport

end Cronwatch.Jobs
