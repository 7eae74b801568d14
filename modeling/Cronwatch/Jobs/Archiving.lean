/-
# Jobs.Archiving -- what a whole `archive_job` moves

With a fixed time, readable finish times and files that hold only their own job's
entries, the loop is a partition by `should_archive` (`partition_const`): the entries
that qualify are appended to the archive of the job, the others are left in its history,
and no other job's files are touched (`archiveJob_moves`).
-/
import Cronwatch.Jobs.Archiver

namespace Cronwatch.Jobs

set_option autoImplicit false

open Cronwatch.Runtime

/-! ## Other files -/

namespace HistoryStore

/-- Rewriting the file of a job leaves every other file as it is. -/
theorem replaceEntries_files (jobName : String) (entries : List HistoryEntry)
    (store : HistoryStore) {file : String} (other : file ≠ pathFor jobName) :
    (store.replaceEntries jobName entries).files file = store.files file := by
  have writes : ∀ (written : HistoryStore), (entries.foldl (fun store entry =>
      store.write jobName entry) written).files file = written.files file := by
    induction entries with
    | nil => exact fun _ => rfl
    | cons entry rest ih =>
        intro written
        rw [List.foldl_cons, ih]
        exact Function.update_of_ne other _ _
  rw [replaceEntries, writes]
  exact Function.update_of_ne other _ _

@[simp] theorem entriesFor_replaceEntries (jobName : String) (entries : List HistoryEntry)
    (store : HistoryStore) :
    (store.replaceEntries jobName entries).entriesFor jobName = entries := by
  rw [replaceEntries, JobArchiver.entriesFor_foldl_write, entriesFor_truncate, List.nil_append]

end HistoryStore

namespace ArchiveStore

/-- Any number of `append` calls. -/
def appendAll (entries : List HistoryEntry) (store : ArchiveStore) : ArchiveStore :=
  entries.foldl (fun store entry => store.append entry) store

/-- Entries of one job are appended to its file, and to no other. -/
theorem appendAll_files {jobName : String} {entries : List HistoryEntry}
    (own : ∀ entry ∈ entries, entry.jobName = jobName) (store : ArchiveStore) (file : String) :
    (store.appendAll entries).files file =
      if file = pathFor jobName then store.entriesFor jobName ++ entries else store.files file := by
  induction entries generalizing store with
  | nil =>
      rw [appendAll, List.foldl_nil, List.append_nil, entriesFor]
      split
      · rename_i here
        rw [here]
      · rfl
  | cons entry rest ih =>
      have first : entry.jobName = jobName := own entry List.mem_cons_self
      have step : store.appendAll (entry :: rest) = (store.append entry).appendAll rest := rfl
      rw [step, ih fun later member => own later (List.mem_cons_of_mem entry member)]
      split
      · simp [append, entriesFor, first]
      · rename_i elsewhere
        rw [append, first]
        exact Function.update_of_ne elsewhere _ _

end ArchiveStore

namespace JobArchiver

section Moves

variable (fromisoformat : String → Except PyException ISODateTime) (policy : ArchivePolicy)
  (now : DateTime)

/-- `should_archive(entry, now)` returns `True`. -/
def qualifies (entry : HistoryEntry) : Bool :=
  match shouldArchive fromisoformat policy entry now with
  | .ok answer => answer
  | .error _ => false

variable {fromisoformat}

theorem shouldArchive_of_readable {entry : HistoryEntry}
    (readable : ∀ e, finished fromisoformat entry ≠ .error e) :
    shouldArchive fromisoformat policy entry now =
      .ok (qualifies fromisoformat policy now entry) := by
  unfold qualifies
  cases answered : shouldArchive fromisoformat policy entry now with
  | error e => exact absurd (shouldArchive_eq_error_iff.mp answered) (readable e)
  | ok answer => rfl

/-- **The loop is a partition** by `should_archive`, in order. -/
theorem partition_const {entries : List HistoryEntry} (readable : Readable fromisoformat entries)
    (i : Nat) :
    partition fromisoformat policy (fun _ => now) i entries =
      (entries.filter (qualifies fromisoformat policy now),
        .ok (entries.filter fun entry => !qualifies fromisoformat policy now entry)) := by
  induction entries generalizing i with
  | nil => rfl
  | cons entry rest ih =>
      have first := shouldArchive_of_readable policy now (readable entry List.mem_cons_self)
      have later := ih (fun e member => readable e (List.mem_cons_of_mem entry member)) (i + 1)
      rw [partition, first, List.filter_cons, List.filter_cons]
      cases qualifies fromisoformat policy now entry with
      | true => simp [later]
      | false => simp [later, Except.map]

/-- A call with a fixed time, on readable entries. -/
theorem archiveJob_eq {jobName : String} {s : Stores}
    (readable : Readable fromisoformat (s.history.entriesFor jobName)) :
    archiveJob fromisoformat policy (fun _ => now) jobName s =
      let archived := (s.history.entriesFor jobName).filter (qualifies fromisoformat policy now)
      let remaining := (s.history.entriesFor jobName).filter fun entry =>
        !qualifies fromisoformat policy now entry
      (.ok archived.length,
        { history := if archived = [] then s.history
            else s.history.replaceEntries jobName remaining,
          archive := s.archive.appendAll archived }) := by
  rw [archiveJob, archiveLoop_eq, partition_const policy now readable]
  dsimp only [Except.map]
  by_cases none_ : (s.history.entriesFor jobName).filter (qualifies fromisoformat policy now) = []
  · rw [none_, if_neg (by simp), if_pos rfl]
    rfl
  · rw [if_pos (by simpa using none_), if_neg none_]
    rfl

/-- The jobs of these names have files of their own: no two share one, and each holds
only entries of its job. -/
structure OwnFiles (names : Set String) (s : Stores) : Prop where
  apart : ∀ name ∈ names, ∀ name' ∈ names, safeFile name = safeFile name' → name = name'
  history : ∀ name ∈ names, ∀ entry ∈ s.history.entriesFor name, entry.jobName = name
  archive : ∀ name ∈ names, ∀ entry ∈ s.archive.entriesFor name, entry.jobName = name

variable (fromisoformat) in
/-- **What `archive_job` has to do**: the qualifying entries of the job go to the end of
its archive and the others stay in its history, both in their order; the number moved is
returned, the files of other jobs are as before, and a second call moves nothing. -/
structure Moves (names : Set String) (jobName : String) (before : Stores)
    (after : Except PyException Nat × Stores) : Prop where
  archived : after.2.archive.entriesFor jobName = before.archive.entriesFor jobName ++
    (before.history.entriesFor jobName).filter (qualifies fromisoformat policy now)
  remaining : after.2.history.entriesFor jobName =
    (before.history.entriesFor jobName).filter fun entry =>
      !qualifies fromisoformat policy now entry
  returned : after.1 =
    .ok ((before.history.entriesFor jobName).filter (qualifies fromisoformat policy now)).length
  others : ∀ name ∈ names, name ≠ jobName →
    after.2.history.entriesFor name = before.history.entriesFor name ∧
      after.2.archive.entriesFor name = before.archive.entriesFor name
  again : archiveJob fromisoformat policy (fun _ => now) jobName after.2 = (.ok 0, after.2)

/-- The history after a call, whether or not the file had to be rewritten. -/
theorem history_after {jobName : String} {s : Stores}
    (readable : Readable fromisoformat (s.history.entriesFor jobName)) :
    (archiveJob fromisoformat policy (fun _ => now) jobName s).2.history.entriesFor jobName =
      (s.history.entriesFor jobName).filter fun entry =>
        !qualifies fromisoformat policy now entry := by
  rw [archiveJob_eq policy now readable]
  dsimp only
  split
  · rename_i none_
    refine (List.filter_eq_self.mpr fun entry member => ?_).symm
    have kept := List.filter_eq_nil_iff.mp none_ entry member
    simpa using kept
  · exact HistoryStore.entriesFor_replaceEntries _ _ _

/-- **Archiving moves entries** without losing or duplicating one. -/
theorem archiveJob_moves {names : Set String} {s : Stores} (own : OwnFiles names s)
    (readable : ∀ name ∈ names, Readable fromisoformat (s.history.entriesFor name))
    {jobName : String} (named : jobName ∈ names) :
    Moves fromisoformat policy now names jobName s
      (archiveJob fromisoformat policy (fun _ => now) jobName s) := by
  have read := readable jobName named
  have left := history_after policy now read
  have ownArchived : ∀ entry ∈ (s.history.entriesFor jobName).filter
      (qualifies fromisoformat policy now), entry.jobName = jobName := fun entry member =>
    own.history jobName named entry (List.mem_filter.mp member).1
  refine ⟨?_, left, ?_, fun name member other => ?_, ?_⟩
  · rw [archiveJob_eq policy now read]
    exact (ArchiveStore.appendAll_files ownArchived s.archive _).trans (if_pos rfl)
  · rw [archiveJob_eq policy now read]
  · have file : safeFile name ≠ safeFile jobName := fun same =>
      other (own.apart name member jobName named same)
    rw [archiveJob_eq policy now read]
    constructor
    · dsimp only
      split
      · rfl
      · exact HistoryStore.replaceEntries_files jobName _ s.history file
    · exact (ArchiveStore.appendAll_files ownArchived s.archive _).trans (if_neg file)
  · -- what is left does not qualify, so the second call finds nothing to archive
    have readAgain : Readable fromisoformat
        ((archiveJob fromisoformat policy (fun _ => now) jobName s).2.history.entriesFor
          jobName) := by
      rw [left]
      exact fun entry member => read entry (List.mem_filter.mp member).1
    have nothing : ((archiveJob fromisoformat policy (fun _ => now) jobName s).2.history.entriesFor
        jobName).filter (qualifies fromisoformat policy now) = [] := by
      rw [left, List.filter_filter]
      simp
    rw [archiveJob_eq policy now readAgain]
    dsimp only
    rw [nothing, if_pos rfl]
    rfl

end Moves

/-- The old run is moved, the recent one stays. -/
theorem twoRuns_moves : Moves isoSample {} (june 0) {"backup"} "backup" twoRuns
    (archiveJob isoSample {} (fun _ => june 0) "backup" twoRuns) := by
  have entries : twoRuns.history.entriesFor "backup" = [oldRun, recentRun] := by decide +kernel
  have readable : Readable isoSample (twoRuns.history.entriesFor "backup") := by
    rw [entries]
    intro entry member e
    rcases List.mem_cons.mp member with rfl | last
    · rw [show finished isoSample oldRun = .ok (some (seconds 1712059200)) from by decide +kernel]
      rintro ⟨⟩
    · rw [List.mem_singleton.mp last,
        show finished isoSample recentRun = .ok (some (seconds 1716811200)) from by decide +kernel]
      rintro ⟨⟩
  have own : OwnFiles {"backup"} twoRuns := by
    refine ⟨?_, ?_, ?_⟩
    · rintro _ rfl _ rfl -
      rfl
    · rintro _ rfl entry member
      rw [entries] at member
      rcases List.mem_cons.mp member with rfl | last
      · rfl
      · rw [List.mem_singleton.mp last]
        rfl
    · rintro _ rfl entry member
      cases member
  refine archiveJob_moves {} (june 0) own ?_ rfl
  rintro _ rfl
  exact readable

end JobArchiver

end Cronwatch.Jobs
