/-
# Jobs.History -- one file of finished runs per job name

A store maps a file name to the entries on its lines; a file that does not exist has
none.  The JSON encoding of an entry is taken to read back as the entry.
-/
import Mathlib.Data.Rat.Defs
import Mathlib.Logic.Function.Basic

namespace Cronwatch.Jobs

set_option autoImplicit false

structure HistoryEntry where
  jobName : String
  success : Bool
  exitCode : Int
  duration : ℚ
  startedAt : String
  finishedAt : Option String := none
  stdout : String := ""
  stderr : String := ""
deriving DecidableEq

/-- `job_name.replace(os.sep, "_")` with the suffix, as both stores name their files. -/
def safeFile (jobName : String) : String :=
  jobName.map (fun c => if c = '/' then '_' else c) ++ ".jsonl"

structure HistoryStore where
  files : String → List HistoryEntry := fun _ => []

namespace HistoryStore

def pathFor (jobName : String) : String := safeFile jobName

def entriesFor (jobName : String) (store : HistoryStore) : List HistoryEntry :=
  store.files (pathFor jobName)

/-- Opening the file of the job with mode `"w"`. -/
def truncate (jobName : String) (store : HistoryStore) : HistoryStore where
  files := Function.update store.files (pathFor jobName) []

/-- One more line in the file of the job. -/
def write (jobName : String) (entry : HistoryEntry) (store : HistoryStore) : HistoryStore where
  files := Function.update store.files (pathFor jobName) (store.entriesFor jobName ++ [entry])

def replaceEntries (jobName : String) (entries : List HistoryEntry) (store : HistoryStore) :
    HistoryStore :=
  entries.foldl (fun store entry => store.write jobName entry) (store.truncate jobName)

@[simp] theorem entriesFor_truncate (jobName : String) (store : HistoryStore) :
    (store.truncate jobName).entriesFor jobName = [] := by
  simp [entriesFor, truncate]

@[simp] theorem entriesFor_write (jobName : String) (entry : HistoryEntry) (store : HistoryStore) :
    (store.write jobName entry).entriesFor jobName = store.entriesFor jobName ++ [entry] := by
  simp [entriesFor, write]

end HistoryStore

end Cronwatch.Jobs
