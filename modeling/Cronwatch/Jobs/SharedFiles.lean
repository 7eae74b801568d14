/-
# Jobs.SharedFiles -- job names that lead to one file

Both stores name the file of a job after the job, with `_` in place of every `/`.  Two
names that differ in nothing else lead to one file, and what is stored under one is read
under the other.

`kept_iff`: every name of a set is given back what was stored under it, in all runs
over the set, exactly when no two names of the set become equal by that replacement.  The
files can all be opened: names with a NUL, or too long for the file system, are left out.
-/
import Cronwatch.Jobs.Archiving

namespace Cronwatch.Jobs

set_option autoImplicit false

/-- `job_name.replace(os.sep, "_")`. -/
def underscored (jobName : String) : String := jobName.map fun c => if c = '/' then '_' else c

/-- Names share a file exactly when they are the same but for `/` and `_`. -/
theorem safeFile_eq_iff (name name' : String) :
    safeFile name = safeFile name' ↔ underscored name = underscored name' := by
  unfold safeFile underscored
  constructor
  · intro same
    have lists := congrArg String.toList same
    rw [String.toList_append, String.toList_append] at lists
    exact String.toList_inj.mp (List.append_cancel_right lists)
  · intro same
    rw [same]

namespace Stores

/-- A write to one of the two stores. -/
inductive Op where
  | replaceEntries (jobName : String) (entries : List HistoryEntry)
  | append (entry : HistoryEntry)

def Op.jobName : Op → String
  | .replaceEntries jobName _ => jobName
  | .append entry => entry.jobName

/-- The name is given entries of its own. -/
def Op.Own : Op → Prop
  | .replaceEntries jobName entries => ∀ entry ∈ entries, entry.jobName = jobName
  | .append _ => True

def perform (s : Stores) : Op → Stores
  | .replaceEntries jobName entries =>
      { s with history := s.history.replaceEntries jobName entries }
  | .append entry => { s with archive := s.archive.append entry }

def performAll (s : Stores) (ops : List Op) : Stores := ops.foldl perform s

/-! ## What was stored under a name -/

/-- The entries last stored in the history under the name, given those before a write. -/
def storedAfter (jobName : String) (entries : List HistoryEntry) : Op → List HistoryEntry
  | .replaceEntries name entries' => if name = jobName then entries' else entries
  | .append _ => entries

/-- The entries appended to the archive for the name, given those before a write. -/
def appendedAfter (jobName : String) (entries : List HistoryEntry) : Op → List HistoryEntry
  | .replaceEntries _ _ => entries
  | .append entry => if entry.jobName = jobName then entries ++ [entry] else entries

/-- Both stores give the name back what was stored under it since they held `s`. -/
def Kept (jobName : String) (s : Stores) (ops : List Op) : Prop :=
  (s.performAll ops).history.entriesFor jobName =
      ops.foldl (storedAfter jobName) (s.history.entriesFor jobName) ∧
    (s.performAll ops).archive.entriesFor jobName =
      ops.foldl (appendedAfter jobName) (s.archive.entriesFor jobName)

/-- **One write** under a name with the same file, or with another file. -/
theorem perform_entriesFor {jobName : String} {op : Op}
    (apart : safeFile jobName = safeFile op.jobName → jobName = op.jobName) (s : Stores) :
    (s.perform op).history.entriesFor jobName =
        storedAfter jobName (s.history.entriesFor jobName) op ∧
      (s.perform op).archive.entriesFor jobName =
        appendedAfter jobName (s.archive.entriesFor jobName) op := by
  cases op with
  | replaceEntries name entries =>
      refine ⟨?_, rfl⟩
      rw [perform, storedAfter]
      by_cases same : name = jobName
      · rw [if_pos same, same]
        exact HistoryStore.entriesFor_replaceEntries jobName entries s.history
      · rw [if_neg same]
        exact HistoryStore.replaceEntries_files name entries s.history fun file =>
          same (apart file).symm
  | append entry =>
      refine ⟨rfl, ?_⟩
      rw [perform, appendedAfter]
      by_cases same : entry.jobName = jobName
      · rw [if_pos same, ← same]
        exact Function.update_self _ _ _
      · rw [if_neg same]
        exact Function.update_of_ne (fun file => same (apart file).symm) _ _

/-- **Any number of writes** under names with files of their own. -/
theorem kept_of_apart {jobName : String} {ops : List Op}
    (apart : ∀ op ∈ ops, safeFile jobName = safeFile op.jobName → jobName = op.jobName)
    (s : Stores) : Kept jobName s ops := by
  induction ops generalizing s with
  | nil => exact ⟨rfl, rfl⟩
  | cons op rest ih =>
      obtain ⟨history, archive⟩ := perform_entriesFor (apart op List.mem_cons_self) s
      have later := ih (fun op' member => apart op' (List.mem_cons_of_mem op member)) (s.perform op)
      rw [Kept, history, archive] at later
      exact later

/-- An entry of the job. -/
def entryOf (jobName : String) : HistoryEntry where
  jobName := jobName
  success := true
  exitCode := 0
  duration := 1
  startedAt := "2024-05-27T11:59:59+00:00"

/-- Under a name that shares the file, storing nothing wipes what was stored. -/
theorem wiped_of_shared {name name' : String} (shared : safeFile name = safeFile name')
    (s : Stores) (entries : List HistoryEntry) :
    (s.performAll [.replaceEntries name entries, .replaceEntries name' []]).history.entriesFor
      name = [] := by
  show ((s.history.replaceEntries name entries).replaceEntries name' []).files (safeFile name) = []
  rw [shared]
  exact HistoryStore.entriesFor_replaceEntries name' [] _

/-- What is appended under a name that shares the file is read under both. -/
theorem appended_of_shared {name : String} {entry : HistoryEntry}
    (shared : safeFile name = safeFile entry.jobName) (s : Stores) :
    (s.performAll [.append entry]).archive.entriesFor name =
      s.archive.entriesFor name ++ [entry] := by
  show (s.archive.append entry).files (safeFile name) = s.archive.files (safeFile name) ++ [entry]
  rw [shared]
  exact Function.update_self _ _ _

theorem not_kept_of_shared {name name' : String} (shared : safeFile name = safeFile name')
    (differ : name ≠ name') (s : Stores) :
    ¬ Kept name s [.replaceEntries name [entryOf name], .replaceEntries name' []] := by
  rintro ⟨history, -⟩
  have stored : [Op.replaceEntries name [entryOf name], .replaceEntries name' []].foldl
      (storedAfter name) (s.history.entriesFor name) = [entryOf name] := by
    simp [storedAfter, Ne.symm differ]
  rw [stored, wiped_of_shared shared] at history
  exact List.cons_ne_nil _ _ history.symm

/-- **When jobs do not share their records**: exactly when no two of their names become
equal with `_` in place of `/`. -/
theorem kept_iff (names : Set String) (s : Stores) :
    (∀ ops : List Op, (∀ op ∈ ops, op.jobName ∈ names ∧ op.Own) →
        ∀ jobName ∈ names, Kept jobName s ops) ↔
      ∀ name ∈ names, ∀ name' ∈ names, underscored name = underscored name' → name = name' := by
  constructor
  · intro kept name member name' member' same
    by_contra differ
    refine not_kept_of_shared ((safeFile_eq_iff name name').mpr same) differ s
      (kept _ ?_ name member)
    intro op written
    rcases List.mem_cons.mp written with rfl | last
    · refine ⟨member, fun entry only => ?_⟩
      rw [List.mem_singleton.mp only]
      rfl
    · rw [List.mem_singleton.mp last]
      exact ⟨member', fun entry none_ => by cases none_⟩
  · intro apart ops own jobName member
    refine kept_of_apart (fun op written file => ?_) s
    exact apart jobName member op.jobName (own op written).1 ((safeFile_eq_iff _ _).mp file)

/-- `etl/load` loses its history to `etl_load`, and the two read one archive. -/
theorem shared_file_wiped :
    (∀ op ∈ [Op.replaceEntries "etl/load" [entryOf "etl/load"], .replaceEntries "etl_load" [],
        .append (entryOf "etl_load")], op.Own) ∧
      (performAll {} [.replaceEntries "etl/load" [entryOf "etl/load"],
        .replaceEntries "etl_load" []]).history.entriesFor "etl/load" = [] ∧
      (performAll {} [.append (entryOf "etl_load")]).archive.entriesFor "etl/load" =
        [entryOf "etl_load"] ∧
      ¬ Kept "etl/load" {} [.replaceEntries "etl/load" [entryOf "etl/load"],
        .replaceEntries "etl_load" []] := by
  have shared : safeFile "etl/load" = safeFile "etl_load" := by
    refine (safeFile_eq_iff _ _).mpr (String.toList_inj.mp ?_)
    rw [underscored, underscored, String.toList_map, String.toList_map]
    decide
  refine ⟨?_, wiped_of_shared shared {} _, appended_of_shared shared {},
    not_kept_of_shared shared (by decide) {}⟩
  intro op member
  rcases List.mem_cons.mp member with rfl | member
  · intro entry only
    rw [List.mem_singleton.mp only]
    rfl
  · rcases List.mem_cons.mp member with rfl | member
    · exact fun entry none_ => by cases none_
    · rw [List.mem_singleton.mp member]
      trivial

end Stores

end Cronwatch.Jobs
