/-
# Jobs.HistoryFiles -- the history as text, a JSON object on each line

`record` makes an entry of a result, writes its fields as one line of JSON to the file
of the job, and `entriesFor` reads the lines back.  `json.dumps` and `json.loads` are
parameters.  The files hold what the `HistoryStore` of `Jobs.History` says
(`Represents`), and a line more is an entry more (`Represents.write`).

The entry is made of attributes that an `ExecutionResult` does not have, or not with
that type: `duration`, and `isoformat` of its two clock readings, which are floats.  The
attributes are a parameter of `recordWith`.  With ones that exist every result survives
storage (`recordWith_survives`); as written none does (`never_survives`).
-/
import Cronwatch.Jobs.Executor
import Cronwatch.Jobs.History
import Cronwatch.Runtime.Text
import Cronwatch.Theory.LineFile

namespace Cronwatch.Jobs

set_option autoImplicit false

open Cronwatch.Theory Cronwatch.Runtime

/-! ## Entries as rows -/

namespace HistoryEntry

/-- A member of a row, which is a keyword of `HistoryEntry(**row)`. -/
inductive Argument where
  | jobName (value : String)
  | success (value : Bool)
  | exitCode (value : Int)
  | duration (value : ℚ)
  | startedAt (value : String)
  | finishedAt (value : Option String)
  | stdout (value : String)
  | stderr (value : String)
  /-- A member that is no field of an entry. -/
  | other (key : String)

def Argument.keyword : Argument → String
  | .jobName _ => "job_name"
  | .success _ => "success"
  | .exitCode _ => "exit_code"
  | .duration _ => "duration"
  | .startedAt _ => "started_at"
  | .finishedAt _ => "finished_at"
  | .stdout _ => "stdout"
  | .stderr _ => "stderr"
  | .other key => key

/-- `__init__` of the dataclass. -/
def signature : Signature where
  function := "HistoryEntry.__init__"
  required := ["job_name", "success", "exit_code", "duration", "started_at"]
  optional := ["finished_at", "stdout", "stderr"]

def assign (entry : HistoryEntry) : Argument → HistoryEntry
  | .jobName jobName => { entry with jobName }
  | .success success => { entry with success }
  | .exitCode exitCode => { entry with exitCode }
  | .duration duration => { entry with duration }
  | .startedAt startedAt => { entry with startedAt }
  | .finishedAt finishedAt => { entry with finishedAt }
  | .stdout stdout => { entry with stdout }
  | .stderr stderr => { entry with stderr }
  | .other _ => entry

/-- `HistoryEntry(**row)`. -/
def init (row : List Argument) : Except PyException HistoryEntry :=
  match signature.bind (row.map Argument.keyword) with
  | .error e => .error e
  | .ok () => .ok (row.foldl assign
      { jobName := "", success := false, exitCode := 0, duration := 0, startedAt := "" })

def asdict (entry : HistoryEntry) : List Argument :=
  [.jobName entry.jobName, .success entry.success, .exitCode entry.exitCode,
    .duration entry.duration, .startedAt entry.startedAt, .finishedAt entry.finishedAt,
    .stdout entry.stdout, .stderr entry.stderr]

/-- The row of an entry makes the entry. -/
theorem init_asdict (entry : HistoryEntry) : init entry.asdict = .ok entry := by
  have bound : signature.bind ["job_name", "success", "exit_code", "duration", "started_at",
      "finished_at", "stdout", "stderr"] = .ok () :=
    (signature.bind_returns_iff _).mpr (by decide)
  simp only [init, asdict, List.map_cons, List.map_nil, Argument.keyword, bound, List.foldl_cons,
    List.foldl_nil, assign]

theorem mapM_init_asdict (entries : List HistoryEntry) :
    (entries.map asdict).mapM init = .ok entries := by
  induction entries with
  | nil => rfl
  | cons entry rest ih =>
      rw [List.map_cons, List.mapM_cons, init_asdict, ih]
      rfl

/-- What is read of a result, and the `isoformat` of its clock readings. -/
structure Attributes where
  duration : ExecutionResult → Except PyException ℚ
  isoformat : ℚ → Except PyException String

/-- The attributes as the code spells them; the clock readings are floats. -/
def asWritten : Attributes where
  duration := ExecutionResult.duration
  isoformat := fun _ => .error (.attributeError "'float' object has no attribute 'isoformat'")

/-- `reading.isoformat() if reading else None`. -/
def isoformatOrNone (attributes : Attributes) (reading : ℚ) : Except PyException (Option String) :=
  if reading = 0 then .ok none else (attributes.isoformat reading).map some

/-- `from_result`. -/
def fromResultWith (attributes : Attributes) (result : ExecutionResult) :
    Except PyException HistoryEntry := do
  let duration ← attributes.duration result
  let startedAt ← attributes.isoformat result.startedAt
  let finishedAt ← isoformatOrNone attributes result.finishedAt
  return { jobName := result.jobName, success := result.success, exitCode := result.exitCode,
           duration, startedAt, finishedAt, stdout := result.stdout, stderr := result.stderr }

/-- The attributes are there for every result. -/
structure Attributes.Present (attributes : Attributes) : Prop where
  durations : ∀ result, attributes.duration result = .ok result.durationSeconds
  times : ∀ reading, ∃ text, attributes.isoformat reading = .ok text

/-- With attributes that exist the entry says what the result says. -/
theorem Attributes.Present.made {attributes : Attributes} (present : attributes.Present)
    (result : ExecutionResult) : ∃ entry, fromResultWith attributes result = .ok entry ∧
      entry.jobName = result.jobName ∧ entry.success = result.success ∧
      entry.exitCode = result.exitCode ∧ entry.duration = result.durationSeconds ∧
      entry.stdout = result.stdout ∧ entry.stderr = result.stderr := by
  obtain ⟨startedAt, started⟩ := present.times result.startedAt
  obtain ⟨finishedAt, finished⟩ : ∃ finishedAt,
      isoformatOrNone attributes result.finishedAt = .ok finishedAt := by
    unfold isoformatOrNone
    obtain ⟨text, written⟩ := present.times result.finishedAt
    split
    · exact ⟨none, rfl⟩
    · exact ⟨some text, by rw [written]; rfl⟩
  unfold fromResultWith
  rw [present.durations, started, finished]
  exact ⟨_, rfl, rfl, rfl, rfl, rfl, rfl, rfl⟩

end HistoryEntry

/-! ## Lines of JSON -/

abbrev Row := List HistoryEntry.Argument

/-- The module `json`. -/
structure Json where
  dumps : Row → List Char
  loads : List Char → Except PyException Row

namespace Json

/-- `loads` inverts `dumps`, and an object is one line between braces. -/
structure Lawful (json : Json) : Prop where
  loads_dumps : ∀ row, json.loads (json.dumps row) = .ok row
  no_newline : ∀ row, ∀ c ∈ json.dumps row, c ≠ '\n' ∧ c ≠ '\r'
  braces : ∀ row, ∃ members, json.dumps row = '{' :: (members ++ ['}'])

/-- A file of rows, read with universal newlines and `line.strip()`. -/
def format (json : Json) : Format Row PyException where
  encode := json.dumps
  decode := json.loads
  isBreak := fun c => c = '\n' ∨ c = '\r'
  trim := strip

theorem Lawful.format {json : Json} (lawful : json.Lawful) : json.format.Lawful where
  decode_encode := lawful.loads_dumps
  unbroken := fun row c member => by
    have plain := lawful.no_newline row c member
    simp [Json.format, plain]
  trim_encode := fun row => by
    obtain ⟨members, written⟩ := lawful.braces row
    show strip (json.dumps row) = json.dumps row
    rw [written]
    exact strip_of_ends (by decide) (by decide) members
  encode_ne_nil := fun row => by
    obtain ⟨members, written⟩ := lawful.braces row
    show json.dumps row ≠ []
    rw [written]
    exact List.cons_ne_nil _ _
  trim_nil := rfl
  newline := rfl

end Json

/-- The files of a history directory.  A store keeps nothing else, so a re-opened one is
the same. -/
structure HistoryFiles where
  files : String → Option (List Char) := fun _ => none

namespace HistoryFiles

def text (file : String) (dir : HistoryFiles) : List Char := (dir.files file).getD []

def loadRaw (json : Json) (jobName : String) (dir : HistoryFiles) : Except PyException (List Row) :=
  match dir.files (HistoryStore.pathFor jobName) with
  | none => .ok []
  | some text => json.format.read text

def entriesFor (json : Json) (jobName : String) (dir : HistoryFiles) :
    Except PyException (List HistoryEntry) :=
  match dir.loadRaw json jobName with
  | .error e => .error e
  | .ok rows => rows.mapM HistoryEntry.init

/-- One line more, in a file opened with mode `"a"`. -/
def write (json : Json) (jobName : String) (entry : HistoryEntry) (dir : HistoryFiles) :
    HistoryFiles where
  files := Function.update dir.files (HistoryStore.pathFor jobName)
    (some (json.format.append (dir.text (HistoryStore.pathFor jobName)) entry.asdict))

def recordWith (attributes : HistoryEntry.Attributes) (json : Json) (result : ExecutionResult)
    (dir : HistoryFiles) : Except PyException HistoryEntry × HistoryFiles :=
  match HistoryEntry.fromResultWith attributes result with
  | .error e => (.error e, dir)
  | .ok entry => (.ok entry, dir.write json result.jobName entry)

def record (json : Json) (result : ExecutionResult) (dir : HistoryFiles) :
    Except PyException HistoryEntry × HistoryFiles :=
  recordWith HistoryEntry.asWritten json result dir

/-! ## The store that the files represent -/

/-- Every file holds the entries of the store, one on each line, and every line is ended. -/
def Represents (json : Json) (dir : HistoryFiles) (store : HistoryStore) : Prop :=
  ∀ file, Format.Ended (dir.text file) ∧
    json.format.read (dir.text file) = .ok ((store.files file).map HistoryEntry.asdict)

variable {json : Json} {dir : HistoryFiles} {store : HistoryStore}

/-- **A line more is an entry more.** -/
theorem Represents.write (represents : Represents json dir store) (lawful : json.Lawful)
    (jobName : String) (entry : HistoryEntry) :
    Represents json (dir.write json jobName entry) (store.write jobName entry) := by
  intro file
  obtain ⟨ended, before⟩ := represents file
  unfold HistoryFiles.write HistoryStore.write HistoryFiles.text
  dsimp only
  by_cases here : file = HistoryStore.pathFor jobName
  · subst here
    rw [Function.update_self, Function.update_self, Option.getD_some]
    refine ⟨json.format.ended_append _ _, ?_⟩
    rw [List.map_append]
    exact lawful.format.read_append ended before entry.asdict
  · rw [Function.update_of_ne here, Function.update_of_ne here]
    exact ⟨ended, before⟩

/-- The entries read from the files are those of the store. -/
theorem Represents.entriesFor (represents : Represents json dir store) (lawful : json.Lawful)
    (jobName : String) : dir.entriesFor json jobName = .ok (store.entriesFor jobName) := by
  have rows : dir.loadRaw json jobName =
      .ok ((store.entriesFor jobName).map HistoryEntry.asdict) := by
    have before := (represents (HistoryStore.pathFor jobName)).2
    unfold text at before
    unfold loadRaw
    cases found : dir.files (HistoryStore.pathFor jobName) with
    | none =>
        rw [found, Option.getD_none, Format.read, lawful.format.lines_nil] at before
        exact before
    | some text =>
        rw [found, Option.getD_some] at before
        exact before
  rw [HistoryFiles.entriesFor, rows]
  exact HistoryEntry.mapM_init_asdict _

/-! ## Results in storage -/

/-- The call returns and leaves one entry more for the job, with what the result says. -/
structure Survives (json : Json) (result : ExecutionResult) (before : HistoryFiles)
    (after : Except PyException HistoryEntry × HistoryFiles) : Prop where
  returns : ∃ entry, after.1 = .ok entry
  stored : ∀ previous, before.entriesFor json result.jobName = .ok previous →
    ∃ entry, after.2.entriesFor json result.jobName = .ok (previous ++ [entry]) ∧
      entry.jobName = result.jobName ∧ entry.success = result.success ∧
      entry.exitCode = result.exitCode ∧ entry.duration = result.durationSeconds ∧
      entry.stdout = result.stdout ∧ entry.stderr = result.stderr

/-- **No result survives storage.**  `record` raises before it opens the file, whatever
the result and the files. -/
theorem never_survives (json : Json) (result : ExecutionResult) (dir : HistoryFiles) :
    record json result dir =
        (.error (.attributeError "'ExecutionResult' object has no attribute 'duration'"), dir) ∧
      ¬ Survives json result dir (record json result dir) := by
  refine ⟨rfl, fun survives => ?_⟩
  obtain ⟨entry, returned⟩ := survives.returns
  cases returned

/-- The result of a job that has run to its end is not stored. -/
theorem finished_result_lost :
    ∃ result, Executor.runJob Executor.idleSystem Executor.obedient = .ok result ∧
      ∀ json, (record json result {}).2.entriesFor json "obedient" = .ok [] ∧
        ¬ Survives json result {} (record json result {}) := by
  refine ⟨_, rfl, fun json => ⟨rfl, fun survives => ?_⟩⟩
  obtain ⟨entry, returned⟩ := survives.returns
  cases returned

/-- With attributes that exist, every result survives storage in files that represent a
store, and they represent the store with its entry after that. -/
theorem recordWith_survives {attributes : HistoryEntry.Attributes}
    (durations : ∀ result, attributes.duration result = .ok result.durationSeconds)
    (times : ∀ reading, ∃ text, attributes.isoformat reading = .ok text) (lawful : json.Lawful)
    (represents : Represents json dir store) (result : ExecutionResult) :
    Survives json result dir (recordWith attributes json result dir) ∧
      ∃ store', Represents json (recordWith attributes json result dir).2 store' := by
  have present : attributes.Present := ⟨durations, times⟩
  obtain ⟨entry, made, same⟩ := present.made result
  have later := represents.write lawful result.jobName entry
  rw [recordWith, made]
  refine ⟨⟨⟨entry, rfl⟩, fun previous read => ⟨entry, ?_, same⟩⟩, _, later⟩
  rw [represents.entriesFor lawful] at read
  cases read
  dsimp only
  rw [later.entriesFor lawful, HistoryStore.entriesFor_write]

end HistoryFiles

end Cronwatch.Jobs
