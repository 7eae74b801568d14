/-
# Jobs.Archiver -- moving old entries from the history to the archive

`archiveJob` is the call as the source makes it.  `steps` lists its effects as single
file operations -- one append per qualifying entry, then the truncation of the history
file and one line per remaining entry -- and `archiveJob_eq_steps` says that all of
them together are the call; a call that stops after `k` of them leaves `stopAfter k`.

`nowAt i` is what the `i`-th `should_archive` of a call takes for `now`: the argument
when one is given, else the clock at that moment.  `datetime.fromisoformat` is a
parameter.

`crashSafe_iff`: a stop loses or duplicates an entry unless it comes before the first
or after the last step.
-/
import Cronwatch.Jobs.History
import Cronwatch.Runtime.Python
import Mathlib.Data.List.Count

namespace Cronwatch.Jobs

set_option autoImplicit false

open Cronwatch.Runtime

/-- What `datetime.fromisoformat` reads: a wall clock without a zone, in microseconds,
or an instant. -/
inductive ISODateTime where
  | naive (wall : Int)
  | aware (instant : DateTime)

structure ArchivePolicy where
  olderThanDays : Int := 30

structure ArchiveStore where
  files : String → List HistoryEntry := fun _ => []

namespace ArchiveStore

def pathFor (jobName : String) : String := safeFile jobName

def entriesFor (jobName : String) (store : ArchiveStore) : List HistoryEntry :=
  store.files (pathFor jobName)

/-- The file is that of the entry's own job. -/
def append (entry : HistoryEntry) (store : ArchiveStore) : ArchiveStore where
  files := Function.update store.files (pathFor entry.jobName)
    (store.entriesFor entry.jobName ++ [entry])

end ArchiveStore

/-- The two directories. -/
structure Stores where
  history : HistoryStore := {}
  archive : ArchiveStore := {}

/-- One atomic operation on a file. -/
inductive FileStep where
  | append (entry : HistoryEntry)
  | truncate (jobName : String)
  | write (jobName : String) (entry : HistoryEntry)

def Stores.apply (s : Stores) : FileStep → Stores
  | .append entry => { s with archive := s.archive.append entry }
  | .truncate jobName => { s with history := s.history.truncate jobName }
  | .write jobName entry => { s with history := s.history.write jobName entry }

def Stores.applyAll (s : Stores) (steps : List FileStep) : Stores := steps.foldl Stores.apply s

namespace JobArchiver

section Archive

variable (fromisoformat : String → Except PyException ISODateTime) (policy : ArchivePolicy)

/-- The finish time of an entry; a missing or empty one is none, one without a zone is
taken as UTC. -/
def finished (entry : HistoryEntry) : Except PyException (Option DateTime) :=
  match entry.finishedAt with
  | none => .ok none
  | some text =>
      if text = "" then .ok none
      else
        match fromisoformat text with
        | .error e => .error e
        | .ok (.naive wall) => .ok (some wall)
        | .ok (.aware instant) => .ok (some instant)

def shouldArchive (entry : HistoryEntry) (now : DateTime) : Except PyException Bool :=
  match finished fromisoformat entry with
  | .error e => .error e
  | .ok none => .ok false
  | .ok (some finished) =>
      let age := now - finished
      .ok (decide (age > seconds (policy.olderThanDays * 86400)))

variable (nowAt : Nat → DateTime)

/-- The loop from the `i`-th entry on: how many it archived, and what remains. -/
def archiveLoop : Nat → List HistoryEntry → ArchiveStore →
    Except PyException (Nat × List HistoryEntry) × ArchiveStore
  | _, [], archive => (.ok (0, []), archive)
  | i, entry :: rest, archive =>
      match shouldArchive fromisoformat policy entry (nowAt i) with
      | .error e => (.error e, archive)
      | .ok true =>
          match archiveLoop (i + 1) rest (archive.append entry) with
          | (.error e, archive) => (.error e, archive)
          | (.ok (archived, remaining), archive) => (.ok (archived + 1, remaining), archive)
      | .ok false =>
          match archiveLoop (i + 1) rest archive with
          | (.error e, archive) => (.error e, archive)
          | (.ok (archived, remaining), archive) => (.ok (archived, entry :: remaining), archive)

def archiveJob (jobName : String) (s : Stores) : Except PyException Nat × Stores :=
  match archiveLoop fromisoformat policy nowAt 0 (s.history.entriesFor jobName) s.archive with
  | (.error e, archive) => (.error e, { s with archive })
  | (.ok (archived, remaining), archive) =>
      if archived ≠ 0 then
        (.ok archived, { history := s.history.replaceEntries jobName remaining, archive })
      else (.ok archived, { s with archive })

/-! ## The call as a list of file steps -/

/-- From the `i`-th entry on: the entries archived, in order, and those that remain,
unless a finish time cannot be read. -/
def partition : Nat → List HistoryEntry → List HistoryEntry × Except PyException (List HistoryEntry)
  | _, [] => ([], .ok [])
  | i, entry :: rest =>
      match shouldArchive fromisoformat policy entry (nowAt i) with
      | .error e => ([], .error e)
      | .ok true => (entry :: (partition (i + 1) rest).1, (partition (i + 1) rest).2)
      | .ok false => ((partition (i + 1) rest).1, (partition (i + 1) rest).2.map (entry :: ·))

def replaceSteps (jobName : String) (remaining : List HistoryEntry) : List FileStep :=
  .truncate jobName :: remaining.map (.write jobName)

/-- The file steps of one call on these entries. -/
def steps (jobName : String) (entries : List HistoryEntry) : List FileStep :=
  let (archived, outcome) := partition fromisoformat policy nowAt 0 entries
  archived.map .append ++
    match outcome with
    | .error _ => []
    | .ok remaining => if archived = [] then [] else replaceSteps jobName remaining

/-- What a call leaves that stops after `k` of its file steps. -/
def stopAfter (k : Nat) (jobName : String) (s : Stores) : Stores :=
  s.applyAll ((steps fromisoformat policy nowAt jobName (s.history.entriesFor jobName)).take k)

end Archive

section Lemmas

variable {fromisoformat : String → Except PyException ISODateTime} {policy : ArchivePolicy}
  {nowAt : Nat → DateTime}

/-! ## All steps together are the call -/

theorem archiveLoop_eq (i : Nat) (entries : List HistoryEntry) (archive : ArchiveStore) :
    archiveLoop fromisoformat policy nowAt i entries archive =
      ((partition fromisoformat policy nowAt i entries).2.map fun remaining =>
          ((partition fromisoformat policy nowAt i entries).1.length, remaining),
        (partition fromisoformat policy nowAt i entries).1.foldl (fun archive entry =>
          archive.append entry) archive) := by
  induction entries generalizing i archive with
  | nil => rfl
  | cons entry rest ih =>
      rw [archiveLoop, partition]
      cases shouldArchive fromisoformat policy entry (nowAt i) with
      | error e => rfl
      | ok qualifies =>
          cases qualifies with
          | true =>
              dsimp only
              rw [ih]
              cases (partition fromisoformat policy nowAt (i + 1) rest).2 <;> rfl
          | false =>
              dsimp only
              rw [ih]
              cases (partition fromisoformat policy nowAt (i + 1) rest).2 <;> rfl

theorem applyAll_appends (entries : List HistoryEntry) (s : Stores) :
    s.applyAll (entries.map .append) =
      { s with archive := entries.foldl (fun archive entry => archive.append entry) s.archive } := by
  induction entries generalizing s with
  | nil => rfl
  | cons entry rest ih => exact ih _

theorem applyAll_writes (jobName : String) (entries : List HistoryEntry) (s : Stores) :
    s.applyAll (entries.map (.write jobName)) =
      { s with history := entries.foldl (fun store entry => store.write jobName entry) s.history } := by
  induction entries generalizing s with
  | nil => rfl
  | cons entry rest ih => exact ih _

theorem applyAll_append (first second : List FileStep) (s : Stores) :
    s.applyAll (first ++ second) = (s.applyAll first).applyAll second :=
  List.foldl_append

theorem applyAll_replaceSteps (jobName : String) (entries : List HistoryEntry) (s : Stores) :
    s.applyAll (replaceSteps jobName entries) =
      { s with history := s.history.replaceEntries jobName entries } :=
  applyAll_writes jobName entries (s.apply (.truncate jobName))

/-- **The call is its file steps.** -/
theorem archiveJob_eq_steps (jobName : String) (s : Stores) :
    (archiveJob fromisoformat policy nowAt jobName s).2 =
      s.applyAll (steps fromisoformat policy nowAt jobName (s.history.entriesFor jobName)) := by
  rw [archiveJob, archiveLoop_eq, steps]
  dsimp only
  rw [applyAll_append, applyAll_appends]
  cases (partition fromisoformat policy nowAt 0 (s.history.entriesFor jobName)).2 with
  | error e => rfl
  | ok remaining =>
      cases (partition fromisoformat policy nowAt 0 (s.history.entriesFor jobName)).1 with
      | nil => rfl
      | cons entry rest =>
          simp only [reduceCtorEq, if_false]
          rw [applyAll_replaceSteps]
          rfl

/-! ## How often an entry is stored -/

/-- The copies of an entry in the history of the job and in the archive. -/
def copies (jobName : String) (entry : HistoryEntry) (s : Stores) : Nat :=
  (s.history.entriesFor jobName).count entry + (s.archive.entriesFor entry.jobName).count entry

theorem count_foldl_append (entries : List HistoryEntry) (archive : ArchiveStore)
    (entry : HistoryEntry) :
    ((entries.foldl (fun archive entry => archive.append entry) archive).entriesFor
        entry.jobName).count entry =
      (archive.entriesFor entry.jobName).count entry + entries.count entry := by
  induction entries generalizing archive with
  | nil => rfl
  | cons first rest ih =>
      rw [List.foldl_cons, ih]
      by_cases sameFile : ArchiveStore.pathFor entry.jobName = ArchiveStore.pathFor first.jobName
      · simp [ArchiveStore.append, ArchiveStore.entriesFor, sameFile, List.count_cons]
        omega
      · have ne : first ≠ entry := fun same => sameFile (by rw [same])
        simp [ArchiveStore.append, ArchiveStore.entriesFor, sameFile, ne]

theorem entriesFor_foldl_write (jobName : String) (entries : List HistoryEntry)
    (store : HistoryStore) :
    (entries.foldl (fun store entry => store.write jobName entry) store).entriesFor jobName =
      store.entriesFor jobName ++ entries := by
  induction entries generalizing store with
  | nil => simp
  | cons entry rest ih => simp [ih]

/-- Appends to the archive: the history stays, and each appended entry has one more copy. -/
theorem copies_appends (jobName : String) (entry : HistoryEntry) (entries : List HistoryEntry)
    (s : Stores) : copies jobName entry (s.applyAll (entries.map .append)) =
      copies jobName entry s + entries.count entry := by
  rw [applyAll_appends, copies, copies, count_foldl_append]
  exact (Nat.add_assoc _ _ _).symm

/-- The history after the truncation and some of the writes. -/
theorem entriesFor_replaceSteps (jobName : String) (remaining : List HistoryEntry) (j : Nat)
    (s : Stores) :
    (s.applyAll ((replaceSteps jobName remaining).take (j + 1))).history.entriesFor jobName =
        remaining.take j ∧
      (s.applyAll ((replaceSteps jobName remaining).take (j + 1))).archive = s.archive := by
  have same : (replaceSteps jobName remaining).take (j + 1) =
      replaceSteps jobName (remaining.take j) := by
    simp [replaceSteps, List.map_take]
  rw [same, applyAll_replaceSteps]
  refine ⟨?_, rfl⟩
  show ((remaining.take j).foldl _ (s.history.truncate jobName)).entriesFor jobName = _
  rw [entriesFor_foldl_write]
  simp

/-! ## What a call archives -/

variable (fromisoformat) in
/-- Every finish time can be read. -/
def Readable (entries : List HistoryEntry) : Prop :=
  ∀ entry ∈ entries, ∀ e, finished fromisoformat entry ≠ .error e

theorem shouldArchive_eq_error_iff {entry : HistoryEntry} {now : DateTime} {e : PyException} :
    shouldArchive fromisoformat policy entry now = .error e ↔
      finished fromisoformat entry = .error e := by
  unfold shouldArchive
  split
  · rename_i e' unread
    simp [unread]
  · rename_i none
    simp [none]
  · rename_i time read
    simp [read]

variable (policy nowAt) in
/-- The loop returns exactly when every finish time can be read. -/
theorem partition_ok_iff (i : Nat) (entries : List HistoryEntry) :
    (∃ remaining, (partition fromisoformat policy nowAt i entries).2 = .ok remaining) ↔
      Readable fromisoformat entries := by
  induction entries generalizing i with
  | nil => simp [partition, Readable]
  | cons entry rest ih =>
      rw [partition, Readable, List.forall_mem_cons, ← Readable, ← ih (i + 1)]
      cases verdict : shouldArchive fromisoformat policy entry (nowAt i) with
      | error e =>
          have unread := shouldArchive_eq_error_iff.mp verdict
          simp [unread]
      | ok qualifies =>
          have readable : ∀ e, finished fromisoformat entry ≠ .error e := by
            intro e unread
            rw [shouldArchive_eq_error_iff.mpr unread] at verdict
            cases verdict
          cases qualifies with
          | true => simp [readable]
          | false =>
              dsimp only
              cases (partition fromisoformat policy nowAt (i + 1) rest).2 <;>
                simp [readable, Except.map]

/-- The loop neither loses nor invents an entry. -/
theorem partition_perm {i : Nat} {entries remaining : List HistoryEntry}
    (returned : (partition fromisoformat policy nowAt i entries).2 = .ok remaining) :
    ((partition fromisoformat policy nowAt i entries).1 ++ remaining).Perm entries := by
  induction entries generalizing i remaining with
  | nil =>
      cases returned
      exact List.Perm.refl []
  | cons entry rest ih =>
      rw [partition] at returned ⊢
      cases verdict : shouldArchive fromisoformat policy entry (nowAt i) with
      | error e =>
          rw [verdict] at returned
          cases returned
      | ok qualifies =>
          rw [verdict] at returned
          cases qualifies with
          | true => exact (ih returned).cons entry
          | false =>
              dsimp only at returned ⊢
              cases later : (partition fromisoformat policy nowAt (i + 1) rest).2 with
              | error e =>
                  rw [later] at returned
                  cases returned
              | ok kept =>
                  rw [later] at returned
                  cases returned
                  exact List.perm_middle.trans ((ih later).cons entry)

theorem mem_partition_archived {i : Nat} {entries : List HistoryEntry} {entry : HistoryEntry}
    (archived : entry ∈ (partition fromisoformat policy nowAt i entries).1) :
    ∃ j, entries[j]? = some entry ∧
      shouldArchive fromisoformat policy entry (nowAt (i + j)) = .ok true := by
  induction entries generalizing i with
  | nil => simp [partition] at archived
  | cons first rest ih =>
      have later : entry ∈ (partition fromisoformat policy nowAt (i + 1) rest).1 →
          ∃ j, (first :: rest)[j]? = some entry ∧
            shouldArchive fromisoformat policy entry (nowAt (i + j)) = .ok true := by
        intro inRest
        obtain ⟨j, found, qualifies⟩ := ih inRest
        refine ⟨j + 1, found, ?_⟩
        rwa [show i + (j + 1) = i + 1 + j by omega]
      rw [partition] at archived
      cases verdict : shouldArchive fromisoformat policy first (nowAt i) with
      | error e =>
          rw [verdict] at archived
          simp at archived
      | ok qualifies =>
          rw [verdict] at archived
          cases qualifies with
          | true =>
              rcases List.mem_cons.mp archived with rfl | inRest
              · exact ⟨0, rfl, verdict⟩
              · exact later inRest
          | false => exact later archived

theorem partition_archived_of_qualifies {i j : Nat} {entries : List HistoryEntry}
    {entry : HistoryEntry} (readable : Readable fromisoformat entries)
    (found : entries[j]? = some entry)
    (qualifies : shouldArchive fromisoformat policy entry (nowAt (i + j)) = .ok true) :
    entry ∈ (partition fromisoformat policy nowAt i entries).1 := by
  induction entries generalizing i j with
  | nil => simp at found
  | cons first rest ih =>
      obtain ⟨readsFirst, readsRest⟩ := List.forall_mem_cons.mp readable
      cases j with
      | zero =>
          cases found
          rw [partition, show shouldArchive fromisoformat policy entry (nowAt i) = .ok true from qualifies]
          exact List.mem_cons_self
      | succ j =>
          have inRest := ih (i := i + 1) readsRest found
            (by rwa [show i + 1 + j = i + (j + 1) by omega])
          rw [partition]
          cases verdict : shouldArchive fromisoformat policy first (nowAt i) with
          | error e =>
              exact absurd (shouldArchive_eq_error_iff.mp verdict) (readsFirst e)
          | ok qualifies =>
              cases qualifies with
              | true => exact List.mem_cons_of_mem first inRest
              | false => exact inRest

/-! ## A call that completes -/

variable (policy nowAt) in
theorem archiveJob_returns_iff (jobName : String) (s : Stores) :
    (∃ n, (archiveJob fromisoformat policy nowAt jobName s).1 = .ok n) ↔
      Readable fromisoformat (s.history.entriesFor jobName) := by
  rw [← partition_ok_iff policy nowAt 0, archiveJob, archiveLoop_eq]
  cases (partition fromisoformat policy nowAt 0 (s.history.entriesFor jobName)).2 with
  | error e => simp [Except.map]
  | ok remaining =>
      dsimp only [Except.map]
      split <;> simp

/-- The steps of a call that completes and archives something. -/
theorem steps_of_ok {jobName : String} {entries remaining : List HistoryEntry}
    (returned : (partition fromisoformat policy nowAt 0 entries).2 = .ok remaining)
    (some_ : (partition fromisoformat policy nowAt 0 entries).1 ≠ []) :
    steps fromisoformat policy nowAt jobName entries =
      (partition fromisoformat policy nowAt 0 entries).1.map .append ++
        replaceSteps jobName remaining := by
  rw [steps]
  dsimp only
  rw [returned]
  simp [some_]

theorem steps_of_none {jobName : String} {entries : List HistoryEntry}
    (none_ : (partition fromisoformat policy nowAt 0 entries).1 = []) :
    steps fromisoformat policy nowAt jobName entries = [] := by
  rw [steps]
  dsimp only
  rw [none_]
  cases (partition fromisoformat policy nowAt 0 entries).2 <;> rfl

/-- **A call that completes conserves** every entry. -/
theorem archiveJob_conserves {jobName : String} {s : Stores}
    (readable : Readable fromisoformat (s.history.entriesFor jobName)) (entry : HistoryEntry) :
    copies jobName entry (archiveJob fromisoformat policy nowAt jobName s).2 =
      copies jobName entry s := by
  obtain ⟨remaining, returned⟩ := (partition_ok_iff policy nowAt 0 _).mpr readable
  rw [archiveJob_eq_steps]
  by_cases nothing : (partition fromisoformat policy nowAt 0 (s.history.entriesFor jobName)).1 = []
  · rw [steps_of_none nothing]
    rfl
  · have counted := (partition_perm returned).count_eq entry
    rw [List.count_append] at counted
    rw [steps_of_ok returned nothing, applyAll_append]
    obtain ⟨history, archive⟩ := entriesFor_replaceSteps jobName remaining remaining.length
      (s.applyAll ((partition fromisoformat policy nowAt 0 (s.history.entriesFor jobName)).1.map .append))
    have whole : (replaceSteps jobName remaining).take (remaining.length + 1) =
        replaceSteps jobName remaining := List.take_of_length_le (by simp [replaceSteps])
    rw [whole] at history archive
    rw [copies, history, archive, List.take_length, applyAll_appends, count_foldl_append, copies]
    omega

/-! ## A call that stops -/

variable (fromisoformat policy nowAt) in
/-- **Crash safety** of a call that stops after `k` file steps: each entry of the history
is still in one of the two stores, and a later call that completes leaves as many
copies of it as there were. -/
structure CrashSafe (k : Nat) (jobName : String) (s : Stores) : Prop where
  kept : ∀ entry ∈ s.history.entriesFor jobName,
    entry ∈ (stopAfter fromisoformat policy nowAt k jobName s).history.entriesFor jobName ∨
      entry ∈ (stopAfter fromisoformat policy nowAt k jobName s).archive.entriesFor entry.jobName
  rerun : ∀ (later : Nat → DateTime) (n : Nat),
    (archiveJob fromisoformat policy later jobName
      (stopAfter fromisoformat policy nowAt k jobName s)).1 = .ok n →
    ∀ entry ∈ s.history.entriesFor jobName, copies jobName entry
      (archiveJob fromisoformat policy later jobName
        (stopAfter fromisoformat policy nowAt k jobName s)).2 = copies jobName entry s

/-- A stop that leaves the copies of every entry as they were is safe. -/
theorem CrashSafe.of_copies {k : Nat} {jobName : String} {s : Stores}
    (same : ∀ entry, copies jobName entry (stopAfter fromisoformat policy nowAt k jobName s) =
      copies jobName entry s) : CrashSafe fromisoformat policy nowAt k jobName s where
  kept := by
    intro entry member
    have present : 0 < copies jobName entry s :=
      Nat.add_pos_left (List.count_pos_iff.mpr member) _
    rw [← same entry, copies] at present
    rcases Nat.add_pos_iff_pos_or_pos.mp present with inHistory | inArchive
    · exact .inl (List.count_pos_iff.mp inHistory)
    · exact .inr (List.count_pos_iff.mp inArchive)
  rerun := by
    intro later n returned entry _
    have readable := (archiveJob_returns_iff policy later _ _).mp ⟨n, returned⟩
    rw [archiveJob_conserves readable, same]

/-- What safety says of a stop whose rerun completes. -/
theorem CrashSafe.copies_eq {k : Nat} {jobName : String} {s : Stores} {entry : HistoryEntry}
    (safe : CrashSafe fromisoformat policy nowAt k jobName s)
    (readable : Readable fromisoformat
      ((stopAfter fromisoformat policy nowAt k jobName s).history.entriesFor jobName))
    (member : entry ∈ s.history.entriesFor jobName) :
    copies jobName entry (stopAfter fromisoformat policy nowAt k jobName s) =
      copies jobName entry s := by
  obtain ⟨n, completed⟩ := (archiveJob_returns_iff policy nowAt jobName _).mpr readable
  rw [← safe.rerun nowAt n completed entry member, archiveJob_conserves readable]

/-- A stop during the appends leaves the history as it was. -/
theorem stopAfter_of_le {k : Nat} {jobName : String} {s : Stores}
    (le : k ≤ (partition fromisoformat policy nowAt 0 (s.history.entriesFor jobName)).1.length) :
    stopAfter fromisoformat policy nowAt k jobName s = s.applyAll
      (((partition fromisoformat policy nowAt 0 (s.history.entriesFor jobName)).1.take k).map
        .append) := by
  rw [stopAfter, steps, List.map_take]
  dsimp only
  rw [List.take_append_of_le_length (by simpa using le)]

/-- Where a finish time cannot be read, the call raises and so does every later one. -/
theorem CrashSafe.of_unreadable {jobName : String} {s : Stores}
    (unreadable : ¬ Readable fromisoformat (s.history.entriesFor jobName)) (k : Nat) :
    CrashSafe fromisoformat policy nowAt k jobName s := by
  have history : (stopAfter fromisoformat policy nowAt k jobName s).history = s.history := by
    cases outcome : (partition fromisoformat policy nowAt 0 (s.history.entriesFor jobName)).2 with
    | error e =>
        rw [stopAfter, steps]
        dsimp only
        rw [outcome, List.append_nil, ← List.map_take, applyAll_appends]
    | ok remaining =>
        exact absurd ((partition_ok_iff policy nowAt 0 _).mp ⟨remaining, outcome⟩) unreadable
  constructor
  · intro entry member
    rw [history]
    exact .inl member
  · intro later n returned
    have readable := (archiveJob_returns_iff policy later _ _).mp ⟨n, returned⟩
    rw [history] at readable
    exact absurd readable unreadable

/-- A stop after the first append duplicates it. -/
theorem not_crashSafe_of_appending {k : Nat} {jobName : String} {s : Stores}
    (readable : Readable fromisoformat (s.history.entriesFor jobName)) (started : 0 < k)
    (le : k ≤ (partition fromisoformat policy nowAt 0 (s.history.entriesFor jobName)).1.length) :
    ¬ CrashSafe fromisoformat policy nowAt k jobName s := by
  intro safe
  have stopped := stopAfter_of_le le
  have history : (stopAfter fromisoformat policy nowAt k jobName s).history = s.history := by
    rw [stopped, applyAll_appends]
  cases archived : (partition fromisoformat policy nowAt 0 (s.history.entriesFor jobName)).1 with
  | nil =>
      rw [archived] at le
      simp at le
      omega
  | cons entry rest =>
      have member : entry ∈ s.history.entriesFor jobName := by
        obtain ⟨j, found, -⟩ := mem_partition_archived (archived ▸ List.mem_cons_self)
        exact List.mem_of_getElem? found
      have conserved := safe.copies_eq (by rw [history]; exact readable) member
      rw [stopped, copies_appends, archived] at conserved
      have twice : 0 < ((entry :: rest).take k).count entry := by
        obtain ⟨k, rfl⟩ := Nat.exists_eq_succ_of_ne_zero started.ne'
        simp
      omega

/-- A stop after the truncation and before the last write loses an entry. -/
theorem not_crashSafe_of_rewriting {k j : Nat} {jobName : String} {s : Stores}
    {remaining : List HistoryEntry}
    (returned : (partition fromisoformat policy nowAt 0 (s.history.entriesFor jobName)).2 =
      .ok remaining)
    (some_ : (partition fromisoformat policy nowAt 0 (s.history.entriesFor jobName)).1 ≠ [])
    (position : k = (partition fromisoformat policy nowAt 0
      (s.history.entriesFor jobName)).1.length + (j + 1))
    (inside : j < remaining.length) : ¬ CrashSafe fromisoformat policy nowAt k jobName s := by
  intro safe
  have perm := partition_perm returned
  have readable := (partition_ok_iff policy nowAt 0 _).mp ⟨remaining, returned⟩
  have stopped : stopAfter fromisoformat policy nowAt k jobName s =
      (s.applyAll ((partition fromisoformat policy nowAt 0 (s.history.entriesFor jobName)).1.map
        .append)).applyAll ((replaceSteps jobName remaining).take (j + 1)) := by
    rw [stopAfter, steps_of_ok returned some_, position, ← applyAll_append]
    congr 1
    simp [List.take_append, List.take_of_length_le]
  obtain ⟨history, archive⟩ := entriesFor_replaceSteps jobName remaining j
    (s.applyAll ((partition fromisoformat policy nowAt 0 (s.history.entriesFor jobName)).1.map .append))
  rw [← stopped] at history archive
  have lost : remaining[j] ∈ remaining.drop j := by
    rw [List.drop_eq_getElem_cons inside]
    exact List.mem_cons_self
  have member : remaining[j] ∈ s.history.entriesFor jobName :=
    perm.mem_iff.mp (List.mem_append_right _ (List.getElem_mem inside))
  have rereadable : Readable fromisoformat
      ((stopAfter fromisoformat policy nowAt k jobName s).history.entriesFor jobName) := by
    rw [history]
    exact fun entry kept => readable entry
      (perm.mem_iff.mp (List.mem_append_right _ (List.mem_of_mem_take kept)))
  have conserved := safe.copies_eq rereadable member
  rw [copies, history, archive, applyAll_appends, count_foldl_append, copies, ← perm.count_eq,
    List.count_append] at conserved
  have counted : (remaining.take j).count remaining[j] + (remaining.drop j).count remaining[j] =
      remaining.count remaining[j] := by
    rw [← List.count_append, List.take_append_drop]
  have positive : 0 < (remaining.drop j).count remaining[j] := List.count_pos_iff.mpr lost
  omega

/-- Without an entry to archive there is nothing to stop in. -/
theorem CrashSafe.of_none {k : Nat} {jobName : String} {s : Stores}
    (none_ : (partition fromisoformat policy nowAt 0 (s.history.entriesFor jobName)).1 = []) :
    CrashSafe fromisoformat policy nowAt k jobName s := by
  refine CrashSafe.of_copies fun entry => ?_
  rw [stopAfter, steps_of_none none_, List.take_nil]
  rfl

/-- A stop after the last step is no stop. -/
theorem CrashSafe.of_last {k : Nat} {jobName : String} {s : Stores}
    (readable : Readable fromisoformat (s.history.entriesFor jobName))
    (last : (s.history.entriesFor jobName).length + 1 ≤ k) :
    CrashSafe fromisoformat policy nowAt k jobName s := by
  obtain ⟨remaining, returned⟩ := (partition_ok_iff policy nowAt 0 _).mpr readable
  by_cases nothing : (partition fromisoformat policy nowAt 0 (s.history.entriesFor jobName)).1 = []
  · exact CrashSafe.of_none nothing
  · have total := (partition_perm returned).length_eq
    have all : (steps fromisoformat policy nowAt jobName (s.history.entriesFor jobName)).length ≤
        k := by
      rw [steps_of_ok returned nothing]
      simp only [List.length_append, List.length_map, replaceSteps, List.length_cons] at total ⊢
      omega
    refine CrashSafe.of_copies fun entry => ?_
    rw [stopAfter, List.take_of_length_le all, ← archiveJob_eq_steps,
      archiveJob_conserves readable]

variable (fromisoformat policy nowAt) in
/-- **When archiving is crash safe**: the call stops before its first file step or after
its last, or it takes none because no entry qualifies, or a finish time cannot be read
so that no call completes. -/
theorem crashSafe_iff (k : Nat) (jobName : String) (s : Stores) :
    CrashSafe fromisoformat policy nowAt k jobName s ↔
      k = 0 ∨ (s.history.entriesFor jobName).length + 1 ≤ k ∨
        (∀ i entry, (s.history.entriesFor jobName)[i]? = some entry →
          shouldArchive fromisoformat policy entry (nowAt i) ≠ .ok true) ∨
        ¬ Readable fromisoformat (s.history.entriesFor jobName) := by
  constructor
  · intro safe
    by_contra unsafe_
    simp only [not_or, not_forall, not_not] at unsafe_
    obtain ⟨started, before, ⟨i, entry, found, qualifies⟩, readable⟩ := unsafe_
    obtain ⟨remaining, returned⟩ := (partition_ok_iff policy nowAt 0 _).mpr readable
    have archived := partition_archived_of_qualifies readable found
      (by rwa [Nat.zero_add])
    have total := (partition_perm returned).length_eq
    rw [List.length_append] at total
    rcases Nat.lt_or_ge (partition fromisoformat policy nowAt 0
      (s.history.entriesFor jobName)).1.length k with rewriting | appending
    · obtain ⟨j, position⟩ := Nat.exists_eq_add_of_lt rewriting
      exact not_crashSafe_of_rewriting returned
        (List.ne_nil_of_mem archived) (j := j) (by omega) (by omega) safe
    · exact not_crashSafe_of_appending readable (by omega) appending safe
  · rintro (rfl | last | none_ | unreadable)
    · exact CrashSafe.of_copies fun entry => rfl
    · by_cases readable : Readable fromisoformat (s.history.entriesFor jobName)
      · exact CrashSafe.of_last readable last
      · exact CrashSafe.of_unreadable readable k
    · refine CrashSafe.of_none (List.eq_nil_iff_forall_not_mem.mpr ?_)
      intro entry archived
      obtain ⟨i, found, qualifies⟩ := mem_partition_archived archived
      rw [Nat.zero_add] at qualifies
      exact none_ i entry found qualifies
    · exact CrashSafe.of_unreadable unreadable k

end Lemmas

/-! ## One old and one recent run -/

def oldRun : HistoryEntry where
  jobName := "backup"
  success := true
  exitCode := 0
  duration := 5
  startedAt := "2024-04-02T11:59:55+00:00"
  finishedAt := some "2024-04-02T12:00:00+00:00"

def recentRun : HistoryEntry where
  jobName := "backup"
  success := true
  exitCode := 0
  duration := 5
  startedAt := "2024-05-27T11:59:55+00:00"
  finishedAt := some "2024-05-27T12:00:00+00:00"

def twoRuns : Stores where
  history := { files := fun file => if file = "backup.jsonl" then [oldRun, recentRun] else [] }

/-- `datetime.fromisoformat` on the two finish times. -/
def isoSample (text : String) : Except PyException ISODateTime :=
  if text = "2024-04-02T12:00:00+00:00" then .ok (.aware (seconds 1712059200))
  else if text = "2024-05-27T12:00:00+00:00" then .ok (.aware (seconds 1716811200))
  else .error (.valueError "Invalid isoformat string")

/-- The first of June 2024, noon. -/
def june : Nat → DateTime := fun _ => seconds 1717243200

/-- A stop after the append archives the old run twice; a stop after the truncation
loses the recent one. -/
theorem stop_duplicates_and_loses :
    copies "backup" oldRun twoRuns = 1 ∧
      copies "backup" oldRun (archiveJob isoSample {} june "backup"
        (stopAfter isoSample {} june 1 "backup" twoRuns)).2 = 2 ∧
      copies "backup" recentRun twoRuns = 1 ∧
      copies "backup" recentRun (stopAfter isoSample {} june 2 "backup" twoRuns) = 0 ∧
      ¬ ∀ k, CrashSafe isoSample {} june k "backup" twoRuns := by
  have lost : copies "backup" recentRun (stopAfter isoSample {} june 2 "backup" twoRuns) = 0 := by
    decide +kernel
  refine ⟨by decide +kernel, by decide +kernel, by decide +kernel, lost, fun safe => ?_⟩
  obtain ⟨history, archive⟩ := Nat.add_eq_zero_iff.mp lost
  rcases (safe 2).kept recentRun (by decide +kernel) with inHistory | inArchive
  · exact List.count_eq_zero.mp history inHistory
  · exact List.count_eq_zero.mp archive inArchive

end JobArchiver

end Cronwatch.Jobs
