/-
# Jobs.ChangelogReporter -- what has changed, by job

`build_changelog_report` reads all entries of a changelog and makes one summary for each job:
how many changes, when the last was, and which fields.

`changelog_report` goes from the snapshots to the report: of any number of differences taken
between native snapshots, one after the other, the file keeps every changed field, and the report
counts them.  The order in which the differences of the jobs were taken does not show
(`reportOf_perm`).
-/
import Cronwatch.Jobs.ChangelogDiff
import Cronwatch.Theory.Buckets
import Cronwatch.Theory.StableSort
import Mathlib.Order.Bounds.Defs

namespace Cronwatch.Jobs

set_option autoImplicit false

open Cronwatch.Theory Cronwatch.Runtime

/-- What the report reads of an entry whose names are texts. -/
structure NamedEntry where
  jobName : String
  changedAt : DateTime
  fieldName : String
deriving DecidableEq

def NamedEntry.of? (entry : ChangelogEntry) : Option NamedEntry :=
  match entry.jobName, entry.fieldName with
  | .str jobName, .str fieldName => some { jobName, changedAt := entry.changedAt, fieldName }
  | _, _ => none

structure ChangelogSummary where
  jobName : String
  totalChanges : Nat
  lastChangedAt : Option DateTime
  changedFields : List String
deriving DecidableEq

def ChangelogSummary.hasChanges (summary : ChangelogSummary) : Bool := 0 < summary.totalChanges

structure ChangelogReport where
  summaries : List ChangelogSummary
deriving DecidableEq

namespace ChangelogReport

def totalJobsWithChanges (report : ChangelogReport) : Nat :=
  report.summaries.countP ChangelogSummary.hasChanges

def totalChanges (report : ChangelogReport) : Nat :=
  (report.summaries.map ChangelogSummary.totalChanges).sum

def summaryFor (jobName : String) (report : ChangelogReport) : Option ChangelogSummary :=
  report.summaries.find? fun summary => summary.jobName = jobName

end ChangelogReport

def laterOf (last entry : NamedEntry) : NamedEntry :=
  if last.changedAt < entry.changedAt then entry else last

/-- `max(entries, key=lambda e: e.changed_at)`. -/
def latest : List NamedEntry → Option NamedEntry
  | [] => none
  | entry :: rest => some (rest.foldl laterOf entry)

def summariseEntries (jobName : String) (entries : List NamedEntry) : ChangelogSummary :=
  match latest entries with
  | none => { jobName, totalChanges := 0, lastChangedAt := none, changedFields := [] }
  | some last =>
      { jobName
        totalChanges := entries.length
        lastChangedAt := some last.changedAt
        changedFields := sortedSet (entries.map NamedEntry.fieldName) }

/-- The report of these entries. -/
def reportOf (entries : List NamedEntry) : ChangelogReport where
  summaries := (sortEntries false (buckets NamedEntry.jobName entries)).entries.map fun e =>
    summariseEntries e.1 e.2

/-- `build_changelog_report`; `none` stands for entries whose names are no texts. -/
def buildChangelogReport (iso : IsoFormat) (store : ChangelogStore) :
    Except PyException (Option ChangelogReport) := do
  return ((← store.allEntries iso).mapM NamedEntry.of?).map reportOf

/-! ## The report of a list of entries -/

theorem latest_spec {entries : List NamedEntry} {last : NamedEntry} (found : latest entries = some last) :
    last ∈ entries ∧ ∀ entry ∈ entries, entry.changedAt ≤ last.changedAt := by
  cases entries with
  | nil => cases found
  | cons first rest =>
      rw [latest, Option.some_inj] at found
      subst found
      induction rest using List.reverseRecOn with
      | nil => simp
      | append_singleton before entry ih =>
          rw [List.foldl_append, List.foldl_cons, List.foldl_nil]
          obtain ⟨member, greatest⟩ := ih
          rw [← List.cons_append, List.forall_mem_append, List.forall_mem_singleton, List.mem_append,
            List.mem_singleton, laterOf]
          split
          · rename_i later
            exact ⟨.inr rfl, fun e among => (greatest e among).trans later.le, le_rfl⟩
          · rename_i earlier
            exact ⟨.inl member, greatest, not_lt.mp earlier⟩

theorem latest_eq_none {entries : List NamedEntry} (none_ : latest entries = none) : entries = [] := by
  cases entries with
  | nil => rfl
  | cons first rest => cases none_

/-- What the report says of one job. -/
structure Summarises (entries : List NamedEntry) (summary : ChangelogSummary) : Prop where
  total : summary.totalChanges = entries.countP fun entry => entry.jobName = summary.jobName
  last : ∃ last, summary.lastChangedAt = some last ∧
    IsGreatest {t | ∃ entry ∈ entries, entry.jobName = summary.jobName ∧ entry.changedAt = t} last
  fields : summary.changedFields.Pairwise (· < ·) ∧ ∀ field, field ∈ summary.changedFields ↔
    ∃ entry ∈ entries, entry.jobName = summary.jobName ∧ entry.fieldName = field

variable (entries : List NamedEntry)

/-- The entries of a job. -/
def entriesOf (jobName : String) : List NamedEntry :=
  entries.filter fun entry => entry.jobName = jobName

theorem summaries_reportOf : (reportOf entries).summaries =
    (sortedSet (entries.map NamedEntry.jobName)).map fun jobName =>
      summariseEntries jobName (entriesOf entries jobName) := by
  have jobs : sortedSet (entries.map NamedEntry.jobName) =
      (sortEntries false (buckets NamedEntry.jobName entries)).keys := by
    rw [keys_sortEntries]
    symm
    refine eq_sortedSet (pairwise_sortedSet _) fun jobName => ?_
    rw [mem_sortedSet, mem_keys_buckets, List.mem_map]
  rw [reportOf, jobs, Dict.keys, List.map_map]
  apply List.map_congr_left
  intro e member
  rw [(bucket_of_mem NamedEntry.jobName (mem_sortedBy.mp member)).1]
  rfl

/-- The summary of a job that has entries. -/
theorem summariseEntries_spec {jobName : String} (some_ : ∃ entry ∈ entries, entry.jobName = jobName) :
    (summariseEntries jobName (entriesOf entries jobName)).jobName = jobName ∧
      Summarises entries (summariseEntries jobName (entriesOf entries jobName)) := by
  have mine : ∀ entry, entry ∈ entriesOf entries jobName ↔ entry ∈ entries ∧ entry.jobName = jobName := by
    intro entry
    rw [entriesOf, List.mem_filter, decide_eq_true_eq]
  rw [summariseEntries]
  cases found : latest (entriesOf entries jobName) with
  | none =>
      obtain ⟨entry, member, same⟩ := some_
      have among := (mine entry).mpr ⟨member, same⟩
      rw [latest_eq_none found] at among
      cases among
  | some last =>
      have is := latest_spec found
      refine ⟨rfl, ?_, ⟨last.changedAt, rfl, ⟨last, ?_⟩, ?_⟩, pairwise_sortedSet _, fun field => ?_⟩
      · rw [List.countP_eq_length_filter]
        rfl
      · exact ⟨((mine last).mp is.1).1, ((mine last).mp is.1).2, rfl⟩
      · rintro _ ⟨entry, member, same, rfl⟩
        exact is.2 entry ((mine entry).mpr ⟨member, same⟩)
      · dsimp only
        rw [mem_sortedSet, List.mem_map]
        simp only [mine, and_assoc]

/-- Of summaries with different names, the one with a name. -/
theorem find?_jobName_iff {summaries : List ChangelogSummary}
    (distinct : (summaries.map ChangelogSummary.jobName).Nodup) (jobName : String)
    (summary : ChangelogSummary) :
    (summaries.find? fun summary => summary.jobName = jobName) = some summary ↔
      summary ∈ summaries ∧ summary.jobName = jobName := by
  induction summaries with
  | nil => simp
  | cons first rest ih =>
      rw [List.map_cons, List.nodup_cons] at distinct
      by_cases here : first.jobName = jobName
      · rw [List.find?_cons_of_pos (by simpa using here), Option.some_inj, List.mem_cons]
        constructor
        · rintro rfl
          exact ⟨.inl rfl, here⟩
        · rintro ⟨rfl | later, same⟩
          · rfl
          · have again : summary.jobName ∈ rest.map ChangelogSummary.jobName := List.mem_map_of_mem later
            rw [same, ← here] at again
            exact absurd again distinct.1
      · rw [List.find?_cons_of_neg (by simpa using here), ih distinct.2, List.mem_cons]
        constructor
        · exact fun ⟨later, same⟩ => ⟨.inr later, same⟩
        · rintro ⟨rfl | later, same⟩
          · exact absurd same here
          · exact ⟨later, same⟩

/-- **A report** has one summary for each job with entries, in order of their names. -/
structure Reports (report : ChangelogReport) : Prop where
  names : report.summaries.map ChangelogSummary.jobName = sortedSet (entries.map NamedEntry.jobName)
  summaries : ∀ summary ∈ report.summaries, Summarises entries summary
  total : report.totalChanges = entries.length
  jobs : report.totalJobsWithChanges = report.summaries.length
  found : ∀ jobName summary, report.summaryFor jobName = some summary ↔
    summary ∈ report.summaries ∧ summary.jobName = jobName

theorem reportOf_reports : Reports entries (reportOf entries) := by
  have spec : ∀ jobName ∈ sortedSet (entries.map NamedEntry.jobName),
      (summariseEntries jobName (entriesOf entries jobName)).jobName = jobName ∧
        Summarises entries (summariseEntries jobName (entriesOf entries jobName)) := by
    intro jobName member
    rw [mem_sortedSet, List.mem_map] at member
    exact summariseEntries_spec entries member
  have names : (reportOf entries).summaries.map ChangelogSummary.jobName =
      sortedSet (entries.map NamedEntry.jobName) := by
    rw [summaries_reportOf, List.map_map]
    exact (List.map_congr_left fun jobName member => (spec jobName member).1).trans (List.map_id _)
  have summaries : ∀ summary ∈ (reportOf entries).summaries, Summarises entries summary := by
    rw [summaries_reportOf]
    intro summary member
    obtain ⟨jobName, listed, rfl⟩ := List.mem_map.mp member
    exact (spec jobName listed).2
  have counts : (reportOf entries).summaries.map ChangelogSummary.totalChanges =
      (sortedSet (entries.map NamedEntry.jobName)).map fun jobName =>
        entries.countP fun entry => true && decide (entry.jobName = jobName) := by
    rw [← names, List.map_map]
    apply List.map_congr_left
    intro summary member
    rw [(summaries summary member).total, Function.comp_apply]
    simp only [Bool.true_and]
  refine ⟨names, summaries, ?_, ?_, fun jobName summary => ?_⟩
  · rw [ChangelogReport.totalChanges, counts, sum_countP _ _ _ (nodup_sortedSet _),
      List.countP_eq_length]
    intro entry member
    rw [Bool.true_and, decide_eq_true_eq, mem_sortedSet]
    exact List.mem_map_of_mem member
  · rw [ChangelogReport.totalJobsWithChanges, List.countP_eq_length]
    intro summary member
    obtain ⟨-, -, ⟨⟨entry, among, same, -⟩, -⟩⟩ := (summaries summary member).last
    rw [ChangelogSummary.hasChanges, decide_eq_true_eq, (summaries summary member).total,
      List.countP_pos_iff]
    exact ⟨entry, among, by simpa using same⟩
  · apply find?_jobName_iff
    rw [names]
    exact nodup_sortedSet _

/-! ## From the snapshots to the report -/

/-- A call of `diff_snapshots`. -/
structure Diff where
  before : JobSnapshot
  after : JobSnapshot
  now : DateTime

namespace Diff

/-- Every field of both snapshots has a value that JSON has. -/
def Native (diff : Diff) : Prop :=
  ∀ snapshot ∈ [diff.before, diff.after], ∀ key, (snapshot.field key).Native

/-- The entries that the call records. -/
def changes (ne : PyValue → PyValue → Bool) (diff : Diff) : List ChangelogEntry :=
  (JobSnapshot.changedKeys ne diff.before diff.after).map
    (JobSnapshot.change diff.before diff.after diff.now)

/-- The same, as the report reads them. -/
def named (ne : PyValue → PyValue → Bool) (diff : Diff) : List NamedEntry :=
  (JobSnapshot.changedKeys ne diff.before diff.after).map fun key =>
    { jobName := diff.after.jobName, changedAt := diff.now, fieldName := key }

end Diff

section Life

variable (iso : IsoFormat) (ne : PyValue → PyValue → Bool)

/-- The calls one after the other on one changelog; one that raises ends them. -/
def runDiffs : List Diff → ChangelogStore → Except PyException Unit × ChangelogStore
  | [], store => (.ok (), store)
  | diff :: rest, store =>
      match JobSnapshot.diffSnapshots ne (ChangelogStore.record (.ok ()) iso) diff.now diff.before
          diff.after store none with
      | (.error e, store) => (.error e, store)
      | (.ok _, store) => runDiffs rest store

variable {iso ne}

theorem recordAll_append {record : ChangelogEntry → ChangelogStore → Except PyException Unit × ChangelogStore}
    {entries rest : List ChangelogEntry} {store store' : ChangelogStore}
    (recorded : JobSnapshot.recordAll record (entries ++ rest) store = (.ok (), store')) :
    ∃ between, JobSnapshot.recordAll record entries store = (.ok (), between) ∧
      JobSnapshot.recordAll record rest between = (.ok (), store') := by
  induction entries generalizing store with
  | nil => exact ⟨store, rfl, recorded⟩
  | cons entry others ih =>
      rw [List.cons_append, JobSnapshot.recordAll] at recorded
      rw [JobSnapshot.recordAll]
      cases made : record entry store with
      | mk outcome store₁ =>
          rw [made] at recorded
          cases outcome with
          | error e => cases recorded
          | ok done => exact ih recorded

/-- Where the store takes all changes, so do the calls. -/
theorem runDiffs_of_recordAll {diffs : List Diff} {store store' : ChangelogStore}
    (recorded : JobSnapshot.recordAll (ChangelogStore.record (.ok ()) iso)
      (diffs.flatMap (Diff.changes ne)) store = (.ok (), store')) :
    runDiffs iso ne diffs store = (.ok (), store') := by
  induction diffs generalizing store with
  | nil => exact recorded
  | cons diff rest ih =>
      rw [List.flatMap_cons] at recorded
      obtain ⟨between, first, later⟩ := recordAll_append recorded
      rw [runDiffs, JobSnapshot.diffSnapshots, JobSnapshot.diffLoop_eq]
      dsimp only
      rw [← JobSnapshot.changedKeys, Option.getD_none, ← Diff.changes, first]
      exact ih later

theorem Diff.native_changes {diff : Diff} (native : diff.Native) :
    ∀ entry ∈ diff.changes ne, entry.Native := by
  intro entry member
  obtain ⟨key, -, rfl⟩ := List.mem_map.mp member
  exact ⟨trivial, trivial, native diff.before (by simp) key, native diff.after (by simp) key⟩

theorem of?_changes (diffs : List Diff) : (diffs.flatMap (Diff.changes ne)).mapM NamedEntry.of? =
    some (diffs.flatMap (Diff.named ne)) := by
  have single : ∀ (diff : Diff) (keys : List String),
      (keys.map (JobSnapshot.change diff.before diff.after diff.now)).mapM NamedEntry.of? =
        some (keys.map fun key =>
          { jobName := diff.after.jobName, changedAt := diff.now, fieldName := key }) := by
    intro diff keys
    induction keys with
    | nil => rfl
    | cons key rest ih =>
        rw [List.map_cons, List.mapM_cons, ih]
        rfl
  induction diffs with
  | nil => rfl
  | cons diff rest ih =>
      rw [List.flatMap_cons, List.mapM_append, ih, Diff.changes, single]
      rfl

theorem sortedSet_congr {l l' : List String} (same : ∀ k, k ∈ l ↔ k ∈ l') : sortedSet l = sortedSet l' :=
  eq_sortedSet (pairwise_sortedSet l) fun k => mem_sortedSet.trans (same k)

theorem summariseEntries_perm (jobName : String) {entries entries' : List NamedEntry}
    (perm : entries.Perm entries') : summariseEntries jobName entries = summariseEntries jobName entries' := by
  rw [summariseEntries, summariseEntries]
  cases found : latest entries with
  | none =>
      rw [latest_eq_none found] at perm
      have empty : entries' = [] := perm.symm.eq_nil
      rw [empty]
      rfl
  | some last =>
      have is := latest_spec found
      cases found' : latest entries' with
      | none =>
          rw [latest_eq_none found'] at perm
          rw [perm.eq_nil] at is
          cases is.1
      | some last' =>
          have is' := latest_spec found'
          have same : last.changedAt = last'.changedAt :=
            le_antisymm (is'.2 last (perm.mem_iff.mp is.1)) (is.2 last' (perm.mem_iff.mpr is'.1))
          have fields : sortedSet (entries.map NamedEntry.fieldName) =
              sortedSet (entries'.map NamedEntry.fieldName) :=
            sortedSet_congr fun field => (perm.map NamedEntry.fieldName).mem_iff
          dsimp only
          rw [same, perm.length_eq, fields]

/-- The order of the entries does not show in the report. -/
theorem reportOf_perm {entries entries' : List NamedEntry} (perm : entries.Perm entries') :
    reportOf entries = reportOf entries' := by
  have jobs : sortedSet (entries.map NamedEntry.jobName) = sortedSet (entries'.map NamedEntry.jobName) :=
    sortedSet_congr fun jobName => (perm.map NamedEntry.jobName).mem_iff
  have summaries : (reportOf entries).summaries = (reportOf entries').summaries := by
    rw [summaries_reportOf, summaries_reportOf, jobs]
    apply List.map_congr_left
    intro jobName _
    exact summariseEntries_perm jobName (perm.filter _)
  rw [reportOf, reportOf] at summaries ⊢
  exact congrArg ChangelogReport.mk summaries

/-- **From the snapshots to the report.**  Of any differences taken one after the other between
snapshots with native values, from an absent changelog on, none raises; the report of the changelog
is that of all changed fields; and taken in another order they make the same report. -/
theorem changelog_report (iso : IsoFormat) (ne : PyValue → PyValue → Bool) (diffs : List Diff)
    (native : ∀ diff ∈ diffs, diff.Native) :
    ∃ store report, runDiffs iso ne diffs { file := none } = (.ok (), store) ∧
      buildChangelogReport iso store = .ok (some report) ∧ Reports (diffs.flatMap (Diff.named ne)) report ∧
      ∀ diffs', diffs'.Perm diffs → ∃ store', runDiffs iso ne diffs' { file := none } = (.ok (), store') ∧
        buildChangelogReport iso store' = .ok (some report) := by
  have reported : ∀ diffs' : List Diff, (∀ diff ∈ diffs', diff.Native) →
      ∃ store, runDiffs iso ne diffs' { file := none } = (.ok (), store) ∧
        buildChangelogReport iso store = .ok (some (reportOf (diffs'.flatMap (Diff.named ne)))) := by
    intro diffs' native'
    have entries : ∀ entry ∈ diffs'.flatMap (Diff.changes ne), entry.Native := by
      intro entry member
      obtain ⟨diff, among, changed⟩ := List.mem_flatMap.mp member
      exact Diff.native_changes (native' diff among) entry changed
    have empty : ({ file := none } : ChangelogStore).load = .ok (.list []) := rfl
    have readable : ([] : List PyValue).mapM (ChangelogEntry.fromDict iso) = .ok [] := rfl
    obtain ⟨store, recorded, read⟩ := ChangelogStore.recordAll_native entries empty readable
    refine ⟨store, runDiffs_of_recordAll recorded, ?_⟩
    rw [buildChangelogReport, read, List.nil_append]
    show Except.ok (((diffs'.flatMap (Diff.changes ne)).mapM NamedEntry.of?).map reportOf) = _
    rw [of?_changes, Option.map_some]
  obtain ⟨store, ran, read⟩ := reported diffs native
  refine ⟨store, _, ran, read, reportOf_reports _, fun diffs' perm => ?_⟩
  obtain ⟨store', ran', read'⟩ := reported diffs' fun diff member => native diff (perm.mem_iff.mp member)
  exact ⟨store', ran', by rw [read', reportOf_perm (perm.flatMap_right (Diff.named ne))]⟩

end Life

/-- The schedule of the backup is moved, and a day later moved again. -/
theorem changelog_report_schedule : let moved (day : Int) (old new : String) : Diff :=
      { before := JobSnapshot.withField day "schedule" (.str old)
        after := JobSnapshot.withField (day + 1) "schedule" (.str new)
        now := seconds (86400 * (day + 1)) }
    ∃ store report, runDiffs ChangelogStore.noon JobSnapshot.plainNe
        [moved 0 "0 1 * * *" "0 2 * * *", moved 1 "0 2 * * *" "0 3 * * *"] { file := none } = (.ok (), store) ∧
      buildChangelogReport ChangelogStore.noon store = .ok (some report) ∧ report.totalChanges = 2 := by
  intro moved
  have native : ∀ diff ∈ [moved 0 "0 1 * * *" "0 2 * * *", moved 1 "0 2 * * *" "0 3 * * *"], diff.Native := by
    have one : ∀ day old new, (moved day old new).Native := by
      intro day old new snapshot among key
      rw [List.mem_cons, List.mem_singleton] at among
      rcases among with rfl | rfl <;>
      · simp only [moved, JobSnapshot.field, JobSnapshot.withField, Dict.get?_set, Dict.get?_empty]
        split <;> trivial
    intro diff member
    rw [List.mem_cons, List.mem_singleton] at member
    rcases member with rfl | rfl <;> exact one _ _ _
  obtain ⟨store, report, ran, read, reports, -⟩ :=
    changelog_report ChangelogStore.noon JobSnapshot.plainNe _ native
  exact ⟨store, report, ran, read, reports.total⟩

end Cronwatch.Jobs
