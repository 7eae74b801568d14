/-
# Jobs.Snapshot -- the last good result of every job, in a file that is replaced

`SnapshotStore` writes all its snapshots to a file beside its own one and moves that over
it.  Writing the other file may stop anywhere, with any part of the text written;
`os.replace` is one step.  `_load` reads the file, and takes whatever is wrong with it for
no snapshots.

The text that is written is read back as the map that was held (`read_dumps`), so the
steps of an operation are an atomic save (`saver_atomic`), and a store that is opened after
a stop holds the map of the last operation that was completed or of the one that was
interrupted (`reopened_atomic`).
-/
import Cronwatch.Runtime.Json
import Cronwatch.Runtime.Keywords
import Cronwatch.Theory.AtomicSave
import Mathlib.Data.List.Infix
import Mathlib.Logic.Function.Basic

namespace Cronwatch.Jobs

set_option autoImplicit false

open Cronwatch.Theory Cronwatch.Runtime
open Cronwatch.Theory.Json (Token Value)

/-- `Snapshot(**v)` checks no types, so the fields may be values of any type. -/
structure Snapshot where
  jobName : PyValue
  command : PyValue
  exitCode : PyValue
  startedAt : PyValue
  duration : PyValue

/-- The attributes of a result that `from_result` reads. -/
structure SnapshotResult where
  jobName : String
  command : String
  exitCode : Int
  startedAt : DateTime
  duration : Number

namespace Snapshot

def fromResult (isoformat : DateTime → String) (result : SnapshotResult) : Snapshot where
  jobName := .str result.jobName
  command := .str result.command
  exitCode := .number (.int result.exitCode)
  startedAt := .str (isoformat result.startedAt)
  duration := .number result.duration

/-- `asdict(v)`. -/
def asdict (v : Snapshot) : PyValue :=
  .dict [(.str "job_name", v.jobName), (.str "command", v.command),
    (.str "exit_code", v.exitCode), (.str "started_at", v.startedAt), (.str "duration", v.duration)]

/-- `__init__` of the dataclass. -/
def signature : Signature where
  function := "Snapshot.__init__"
  required := ["job_name", "command", "exit_code", "started_at", "duration"]

/-- A field that `signature` has found to be given. -/
def field (entries : List (Key × PyValue)) (name : String) : PyValue :=
  (entries.lookup (.str name)).getD .none

/-- `Snapshot(**v)`. -/
def init : PyValue → Except PyException Snapshot
  | .dict entries => do
      let keywords ← entries.mapM fun e => e.1.keyword
      signature.bind keywords
      return { jobName := field entries "job_name", command := field entries "command",
               exitCode := field entries "exit_code", startedAt := field entries "started_at",
               duration := field entries "duration" }
  | value =>
      .error (.typeError ("cronwatch.job_snapshot.Snapshot() argument after ** must be a mapping, " ++
        s!"not {value.typeName}"))

/-- All fields are of the types that JSON has, through and through. -/
structure Native (v : Snapshot) : Prop where
  jobName : v.jobName.Native
  command : v.command.Native
  exitCode : v.exitCode.Native
  startedAt : v.startedAt.Native
  duration : v.duration.Native

end Snapshot

/-! ## Files -/

/-- A path by its directory and stem, and its suffix. -/
structure Path where
  stem : String
  suffix : String
deriving DecidableEq

def Path.withSuffix (suffix : String) (path : Path) : Path := { path with suffix }

/-- The texts of the files that exist. -/
abbrev Disk := Path → Option (List (Token Number))

namespace Disk

/-- A file is opened for writing, and this much of its text has been written. -/
def write (path : Path) (text : List (Token Number)) (d : Disk) : Disk :=
  Function.update d path (some text)

/-- `os.replace(source, target)`. -/
def replace (source target : Path) (d : Disk) : Disk :=
  Function.update (Function.update d target (d source)) source none

end Disk

/-! ## The store -/

namespace SnapshotStore

/-- `{k: asdict(v) for k, v in self._data.items()}`. -/
def rows (data : Dict String Snapshot) : PyValue :=
  .dict (data.entries.map fun e => (.str e.1, e.2.asdict))

/-- `json.dumps` of the rows. -/
def dumps (data : Dict String Snapshot) : Except PyException (List (Token Number)) :=
  match (rows data).dump.error with
  | some e => .error e
  | none => .ok (rows data).dump.tokens

/-- `{k: Snapshot(**v) for k, v in raw.items()}`, into the entries there are already. -/
def collectRows (data : Dict String Snapshot) :
    List (Key × PyValue) → Except PyException (Dict String Snapshot)
  | [] => .ok data
  | (key, v) :: rest => do
      -- the keys of a value that was read are strings
      let name ← key.keyword
      collectRows (data.set name (← Snapshot.init v)) rest

/-- What the `try` block of `_load` returns or raises. -/
def read (text : List (Token Number)) : Except PyException (Dict String Snapshot) :=
  match Json.parse text with
  | none => .error jsonDecodeError
  | some j =>
      match ofJson j with
      | .dict entries => collectRows .empty entries
      | value => .error (.attributeError s!"'{value.typeName}' object has no attribute 'items'")

/-- `_load`. -/
def load (path : Path) (d : Disk) : Dict String Snapshot :=
  match d path with
  | none => .empty
  | some text =>
      match read text with
      | .error _ => .empty
      | .ok data => data

inductive Op where
  | record (result : SnapshotResult)
  | clear (jobName : String)

/-- The map that the operation persists; a failed result is not recorded. -/
def Op.updated (isoformat : DateTime → String) (data : Dict String Snapshot) :
    Op → Option (Dict String Snapshot)
  | .record result =>
      if result.exitCode ≠ 0 then none
      else some (data.set result.jobName (Snapshot.fromResult isoformat result))
  | .clear jobName => some (data.erase jobName)

/-- The file steps of `_persist`: the text is encoded, the other file opened and its text
written bit by bit, and the file replaced. -/
def persist (path : Path) (data : Dict String Snapshot) : List (Disk → Disk) :=
  match dumps data with
  | .error _ => []
  | .ok text =>
      text.inits.map (Disk.write (path.withSuffix ".tmp")) ++
        [Disk.replace (path.withSuffix ".tmp") path]

/-- The store on a path, as a value that is saved on a disk. -/
def saver (isoformat : DateTime → String) (path : Path) :
    Saver Disk (Dict String Snapshot) Op where
  read := load path
  change op data := (op.updated isoformat data).getD data
  steps op data :=
    match op.updated isoformat data with
    | none => []
    | some data => persist path data

end SnapshotStore

namespace Snapshot

theorem native_init {v : PyValue} {snapshot : Snapshot} (native : v.Native)
    (read : init v = .ok snapshot) : snapshot.Native := by
  cases v with
  | dict entries =>
      rw [init] at read
      obtain ⟨keywords, -, read⟩ := returned_of_bind read
      obtain ⟨_, -, read⟩ := returned_of_bind read
      cases read
      exact ⟨native.1.lookup _, native.1.lookup _, native.1.lookup _, native.1.lookup _,
        native.1.lookup _⟩
  | _ => cases read

theorem init_asdict (v : Snapshot) : init (asdict v) = .ok v := by
  rfl

theorem native_asdict {v : Snapshot} (native : v.Native) : v.asdict.Native := by
  refine ⟨⟨⟨_, rfl⟩, native.jobName, ⟨_, rfl⟩, native.command, ⟨_, rfl⟩, native.exitCode,
    ⟨_, rfl⟩, native.startedAt, ⟨_, rfl⟩, native.duration, trivial⟩, ?_⟩
  simp

theorem native_fromResult (isoformat : DateTime → String) (result : SnapshotResult) :
    (fromResult isoformat result).Native :=
  ⟨trivial, trivial, trivial, trivial, trivial⟩

end Snapshot

namespace SnapshotStore

/-- The fields of all snapshots are of the types that JSON has. -/
def Native (data : Dict String Snapshot) : Prop :=
  ∀ name v, data.get? name = some v → v.Native

variable {isoformat : DateTime → String} {path : Path}

theorem Native.set {data : Dict String Snapshot} (native : Native data) (name : String)
    {v : Snapshot} (new : v.Native) : Native (data.set name v) := by
  intro name' v' held
  rw [Dict.get?_set] at held
  split at held
  · cases held
    exact new
  · exact native name' v' held

theorem Native.erase {data : Dict String Snapshot} (native : Native data) (name : String) :
    Native (data.erase name) := by
  intro name' v held
  rw [Dict.get?_erase] at held
  split at held
  · cases held
  · exact native name' v held

theorem Native.updated {data data' : Dict String Snapshot} (native : Native data) {op : Op}
    (updated : op.updated isoformat data = some data') : Native data' := by
  cases op with
  | record result =>
      rw [Op.updated] at updated
      split at updated
      · cases updated
      · cases updated
        exact native.set _ (Snapshot.native_fromResult isoformat result)
  | clear jobName =>
      cases updated
      exact native.erase jobName

/-! ### What is read -/

theorem collectRows_cons {data : Dict String Snapshot} {key : Key} {v : PyValue}
    {rest : List (Key × PyValue)} {d : Dict String Snapshot}
    (collected : collectRows data ((key, v) :: rest) = .ok d) :
    ∃ name snapshot, Snapshot.init v = .ok snapshot ∧
      collectRows (data.set name snapshot) rest = .ok d := by
  rw [collectRows] at collected
  obtain ⟨name, -, collected⟩ := returned_of_bind collected
  obtain ⟨snapshot, read, collected⟩ := returned_of_bind collected
  exact ⟨name, snapshot, read, collected⟩

theorem native_collectRows {entries : List (Key × PyValue)} :
    ∀ {data d : Dict String Snapshot}, Native data → NativeMembers entries →
      collectRows data entries = .ok d → Native d := by
  induction entries with
  | nil =>
      intro data d native _ collected
      cases collected
      exact native
  | cons e rest ih =>
      obtain ⟨key, v⟩ := e
      intro data d native members collected
      obtain ⟨name, snapshot, read, others⟩ := collectRows_cons collected
      have new : snapshot.Native := Snapshot.native_init members.2.1 read
      exact ih (native.set name new) members.2.2 others

theorem native_empty : Native .empty := by
  intro name v held
  cases held

theorem native_read {text : List (Token Number)} {data : Dict String Snapshot}
    (returned : read text = .ok data) : Native data := by
  rw [read] at returned
  split at returned
  · cases returned
  · rename_i j _
    have native := native_ofJson j
    split at returned
    · rename_i entries value
      rw [value] at native
      exact native_collectRows native_empty native.1 returned
    · cases returned

/-- Whatever is in the file, what is loaded is native. -/
theorem native_load (path : Path) (d : Disk) : Native (load path d) := by
  rw [load]
  split
  · exact native_empty
  · split
    · exact native_empty
    · rename_i data returned
      exact native_read returned

/-! ### What is written -/

theorem native_members (entries : List (String × Snapshot)) (native : ∀ e ∈ entries, e.2.Native) :
    NativeMembers (entries.map fun e => (.str e.1, e.2.asdict)) := by
  induction entries with
  | nil => exact trivial
  | cons e rest ih =>
      have first := Snapshot.native_asdict (native e List.mem_cons_self)
      have others := ih fun e' member => native e' (List.mem_cons_of_mem e member)
      exact ⟨⟨e.1, rfl⟩, first, others⟩

theorem native_rows {data : Dict String Snapshot} (native : Native data) : (rows data).Native := by
  constructor
  · refine native_members data.entries fun e member => ?_
    exact native e.1 e.2 ((Dict.mem_entries_iff data e.1 e.2).mp member)
  · have keys : (data.entries.map fun e => (Key.str e.1, e.2.asdict)).map Prod.fst =
        data.keys.map Key.str := by
      simp [Dict.keys]
    rw [keys]
    exact data.nodup_keys.map fun _ _ same => Key.str.inj same

theorem collectRows_row (data : Dict String Snapshot) (name : String) (v : Snapshot)
    (rest : List (Key × PyValue)) :
    collectRows data ((.str name, v.asdict) :: rest) = collectRows (data.set name v) rest := by
  rw [collectRows, Key.keyword, Snapshot.init_asdict]
  rfl

/-- The rows of entries are collected one after the other. -/
theorem collectRows_rows (entries : List (String × Snapshot)) (held : Dict String Snapshot) :
    collectRows held (entries.map fun e => (.str e.1, e.2.asdict)) =
      .ok (entries.foldl (fun d e => d.set e.1 e.2) held) := by
  induction entries generalizing held with
  | nil => rfl
  | cons e rest ih => rw [List.map_cons, collectRows_row, ih, List.foldl_cons]

/-- **The text of native snapshots** is read back as the map that was written. -/
theorem read_dumps {data : Dict String Snapshot} (native : Native data) :
    ∃ text, dumps data = .ok text ∧ read text = .ok data := by
  obtain ⟨written, j, parsed, value⟩ := native_roundTrip (native_rows native)
  refine ⟨(rows data).dump.tokens, ?_, ?_⟩
  · rw [dumps, written]
  · have whole : data.entries.foldl (fun d e => d.set e.1 e.2) .empty = data :=
      Dict.eq_of_entries (Dict.entries_foldl_set .empty data.keysNodup)
    rw [read, parsed]
    dsimp only
    rw [value, rows]
    dsimp only
    rw [collectRows_rows, whole]

/-! ### The files -/

theorem load_write {tmp : Path} (other : path ≠ tmp) (text : List (Token Number)) (d : Disk) :
    load path (d.write tmp text) = load path d := by
  rw [load, load, Disk.write, Function.update_of_ne other]

/-- All parts of a text, written to the file one after the other. -/
theorem after_writes (tmp : Path) (text : List (Token Number)) (d : Disk) :
    Saver.after (text.inits.map (Disk.write tmp)) d = d.write tmp text := by
  induction text using List.reverseRecOn with
  | nil => rfl
  | append_singleton before token ih =>
      rw [List.inits_append, List.map_append, Saver.after_append, ih]
      exact Function.update_idem ..

theorem load_replace {tmp : Path} (other : path ≠ tmp) {text : List (Token Number)}
    {data : Dict String Snapshot} (returned : read text = .ok data) (d : Disk) :
    load path ((d.write tmp text).replace tmp path) = data := by
  rw [load, Disk.replace, Function.update_of_ne other, Function.update_self, Disk.write,
    Function.update_self]
  dsimp only
  rw [returned]

theorem withSuffix_ne (notTmp : path.suffix ≠ ".tmp") : path ≠ path.withSuffix ".tmp" := by
  intro same
  exact notTmp (congrArg Path.suffix same)

/-- What `_persist` of native snapshots does. -/
theorem persist_native (path : Path) {data : Dict String Snapshot} (native : Native data) :
    ∃ text, read text = .ok data ∧ persist path data =
      text.inits.map (Disk.write (path.withSuffix ".tmp")) ++
        [Disk.replace (path.withSuffix ".tmp") path] := by
  obtain ⟨text, written, returned⟩ := read_dumps native
  refine ⟨text, returned, ?_⟩
  rw [persist, written]

/-- **Saving is atomic**: before the file is replaced only the other one changes. -/
theorem saver_atomic (isoformat : DateTime → String) (notTmp : path.suffix ≠ ".tmp") :
    (saver isoformat path).Atomic := by
  have other := withSuffix_ne notTmp
  apply Saver.Atomic.of_quiet
  · intro op d
    show Saver.Quiet _ (List.dropLast (match op.updated isoformat (load path d) with
      | none => []
      | some data => persist path data))
    cases updated : op.updated isoformat (load path d) with
    | none => exact fun _ impossible => absurd impossible List.not_mem_nil
    | some data =>
        obtain ⟨text, -, steps⟩ := persist_native path ((native_load path d).updated updated)
        dsimp only
        rw [steps, List.dropLast_concat]
        intro f member d'
        obtain ⟨part, -, rfl⟩ := List.mem_map.mp member
        exact load_write other part d'
  · intro op d
    show load path (Saver.after (match op.updated isoformat (load path d) with
      | none => []
      | some data => persist path data) d) = (op.updated isoformat (load path d)).getD (load path d)
    cases updated : op.updated isoformat (load path d) with
    | none => rfl
    | some data =>
        obtain ⟨text, returned, steps⟩ :=
          persist_native path ((native_load path d).updated updated)
        dsimp only
        rw [steps, Saver.after_append, after_writes]
        exact load_replace other returned d

/-- **Crash atomicity**: in any run, with any stops, the file holds the map of the store;
and a store opened after another stop holds that map, or the one that the interrupted
operation makes of it. -/
theorem reopened_atomic (isoformat : DateTime → String) (path : Path)
    (notTmp : path.suffix ≠ ".tmp") (d : Disk) (events : List (Saver.Event Op)) (op : Op)
    (n : Nat) :
    let store := (saver isoformat path).run events ((saver isoformat path).opened d)
    let reopened := (saver isoformat path).step store (.stopped op n)
    load path store.disk = store.value ∧
      (reopened.value = store.value ∨
        reopened.value = (saver isoformat path).change op store.value) := by
  intro store reopened
  have atomic := saver_atomic isoformat notTmp
  have synced : load path store.disk = store.value := atomic.run_synced events d
  exact ⟨synced, atomic.stop_cases synced op n⟩

/-- A backup that took a minute and a half. -/
def backup : SnapshotResult where
  jobName := "backup"
  command := "pg_dump -Fc app"
  exitCode := 0
  startedAt := seconds 1717243200
  duration := .float "90.5"

/-- The clear of the snapshot of a backup, stopped in the middle of the other file. -/
theorem reopened_backup :
    let noon := fun _ => "2024-06-01T12:00:00+00:00"
    let path : Path := { stem := "/var/lib/cronwatch/snapshots", suffix := ".json" }
    let store := (saver noon path).run [.done (.record backup)]
      ((saver noon path).opened fun _ => none)
    let reopened := (saver noon path).step store (.stopped (.clear "backup") 2)
    store.value.keys = ["backup"] ∧ load path store.disk = store.value ∧
      (reopened.value = store.value ∨
        reopened.value = (saver noon path).change (.clear "backup") store.value) :=
  ⟨rfl, reopened_atomic _ _ (by decide) _ _ _ _⟩

end SnapshotStore

end Cronwatch.Jobs
