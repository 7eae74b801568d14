/-
# Jobs.Changelog -- the configuration changes of all jobs, in one JSON file

`ChangelogStore.record` reads the file, appends the entry, truncates the file and writes
everything back with `json.dump`.  The old and the new value of an entry are any Python
values.  One that JSON has no text for ends the writing in the middle, and what is left
is no JSON: all entries are lost.  One that JSON writes as another (a tuple, a dict with
keys that are no strings) is read back as that other.

`record_atomic_iff`: a `record` that raises leaves the entries as they were, and one that
returns adds the entry to them, exactly when the values of the entry are native JSON
ones, unless `record` does not get to the writing.
-/
import Cronwatch.Runtime.Clock
import Cronwatch.Runtime.Json

namespace Cronwatch.Jobs

set_option autoImplicit false

open Cronwatch.Theory Cronwatch.Runtime
open Cronwatch.Theory.Json (Token Value)

/-- `from_dict` checks no types, so the names of an entry may be values of any type. -/
structure ChangelogEntry where
  jobName : PyValue
  changedAt : DateTime
  fieldName : PyValue
  oldValue : PyValue
  newValue : PyValue

namespace ChangelogEntry

def toDict (iso : IsoFormat) (entry : ChangelogEntry) : PyValue :=
  .dict [(.str "job_name", entry.jobName),
    (.str "changed_at", .str (iso.isoformat entry.changedAt)),
    (.str "field_name", entry.fieldName),
    (.str "old_value", entry.oldValue),
    (.str "new_value", entry.newValue)]

/-- `data[key]`. -/
def item (data : PyValue) (key : String) : Except PyException PyValue :=
  match data with
  | .dict entries =>
      match entries.lookup (.str key) with
      | none => .error (keyError key)
      | some value => .ok value
  | .list _ => .error (.typeError "list indices must be integers or slices, not str")
  | .tuple _ => .error (.typeError "tuple indices must be integers or slices, not str")
  | .str _ => .error (.typeError "string indices must be integers, not 'str'")
  | data => .error (.typeError s!"'{data.typeName}' object is not subscriptable")

/-- `datetime.fromisoformat(value)`. -/
def timeOf (iso : IsoFormat) : PyValue → Except PyException DateTime
  | .str text => iso.fromisoformat text
  | _ => .error (.typeError "fromisoformat: argument must be str")

def fromDict (iso : IsoFormat) (data : PyValue) : Except PyException ChangelogEntry := do
  let jobName ← item data "job_name"
  let changedAt ← timeOf iso (← item data "changed_at")
  let fieldName ← item data "field_name"
  let oldValue ← item data "old_value"
  let newValue ← item data "new_value"
  return { jobName, changedAt, fieldName, oldValue, newValue }

/-- All values are of the types that JSON has, through and through. -/
structure Native (entry : ChangelogEntry) : Prop where
  jobName : entry.jobName.Native
  fieldName : entry.fieldName.Native
  oldValue : entry.oldValue.Native
  newValue : entry.newValue.Native

end ChangelogEntry

/-- The text of the file, if there is one. -/
structure ChangelogStore where
  file : Option (List (Token Number))

namespace ChangelogStore

/-- `_load`. -/
def load (s : ChangelogStore) : Except PyException PyValue :=
  match s.file with
  | none => .ok (.list [])
  | some text =>
      match Json.parse text with
      | none => .error jsonDecodeError
      | some j => .ok (ofJson j)

/-- The items that a loop goes through. -/
def iterate : PyValue → Except PyException (List PyValue)
  | .list items | .tuple items => .ok items
  | .dict entries => .ok (entries.map fun e => e.1.value)
  | .str s => .ok (s.toList.map fun c => .str c.toString)
  | value => .error (.typeError s!"'{value.typeName}' object is not iterable")

def allEntries (iso : IsoFormat) (s : ChangelogStore) : Except PyException (List ChangelogEntry) := do
  (← iterate (← s.load)).mapM (ChangelogEntry.fromDict iso)

/-- `_save`; `makedirs` is how `os.makedirs` of the directory ends. -/
def save (makedirs : Except PyException Unit) (entries : List PyValue) (s : ChangelogStore) :
    Except PyException Unit × ChangelogStore :=
  match makedirs with
  | .error e => (.error e, s)
  | .ok () =>
      let written := (PyValue.list entries).dump
      (match written.error with
        | some e => .error e
        | none => .ok (), { file := some written.tokens })

def record (makedirs : Except PyException Unit) (iso : IsoFormat) (entry : ChangelogEntry)
    (s : ChangelogStore) : Except PyException Unit × ChangelogStore :=
  match s.load with
  | .error e => (.error e, s)
  | .ok (.list entries) => save makedirs (entries ++ [entry.toDict iso]) s
  | .ok value =>
      (.error (.attributeError s!"'{value.typeName}' object has no attribute 'append'"), s)

/-! ## What a record changes -/

/-- **A failed record changes nothing**, and one that returns adds its entry. -/
structure Atomic (makedirs : Except PyException Unit) (iso : IsoFormat) (entry : ChangelogEntry)
    (s : ChangelogStore) : Prop where
  raised : ∀ e entries, (s.record makedirs iso entry).1 = .error e → s.allEntries iso = .ok entries →
    (s.record makedirs iso entry).2.allEntries iso = .ok entries
  returned : ∀ entries, (s.record makedirs iso entry).1 = .ok () → s.allEntries iso = .ok entries →
    (s.record makedirs iso entry).2.allEntries iso = .ok (entries ++ [entry])

/-- The file holds a list of entries that can be read, or there is none. -/
def HoldsEntries (iso : IsoFormat) (s : ChangelogStore) : Prop :=
  ∃ items entries, s.load = .ok (.list items) ∧
    items.mapM (ChangelogEntry.fromDict iso) = .ok entries

end ChangelogStore

namespace ChangelogEntry

variable {iso : IsoFormat}

/-- The JSON object of an entry with these values. -/
def jsonOf (iso : IsoFormat) (changedAt : DateTime) (jobName fieldName oldValue newValue : Value Number) :
    Value Number :=
  .object [("job_name", jobName), ("changed_at", .string (iso.isoformat changedAt)),
    ("field_name", fieldName), ("old_value", oldValue), ("new_value", newValue)]

theorem encode_toDict {entry : ChangelogEntry} {j : Value Number}
    (encoded : (entry.toDict iso).encode = some j) :
    ∃ jobName fieldName oldValue newValue, entry.jobName.encode = some jobName ∧
      entry.fieldName.encode = some fieldName ∧ entry.oldValue.encode = some oldValue ∧
      entry.newValue.encode = some newValue ∧
      j = jsonOf iso entry.changedAt jobName fieldName oldValue newValue := by
  obtain ⟨members, written, rfl⟩ := Option.map_eq_some_iff.mp encoded
  obtain ⟨_, jobName, _, named, first, afterName, rfl⟩ := encodeMembers_cons written
  obtain ⟨_, time, _, named', second, afterTime, rfl⟩ := encodeMembers_cons afterName
  obtain ⟨_, fieldName, _, named₃, third, afterField, rfl⟩ := encodeMembers_cons afterTime
  obtain ⟨_, oldValue, _, named₄, fourth, afterOld, rfl⟩ := encodeMembers_cons afterField
  obtain ⟨_, newValue, _, named₅, fifth, afterNew, rfl⟩ := encodeMembers_cons afterOld
  cases named
  cases named'
  cases second
  cases named₃
  cases named₄
  cases named₅
  cases afterNew
  exact ⟨jobName, fieldName, oldValue, newValue, first, third, fourth, fifth, rfl⟩

/-- What is read back of an entry. -/
theorem fromDict_jsonOf (changedAt : DateTime) (jobName fieldName oldValue newValue : Value Number) :
    fromDict iso (ofJson (jsonOf iso changedAt jobName fieldName oldValue newValue)) =
      .ok ⟨ofJson jobName, changedAt, ofJson fieldName, ofJson oldValue, ofJson newValue⟩ := by
  have time : timeOf iso (.str (iso.isoformat changedAt)) = .ok changedAt := iso.roundTrip changedAt
  have read : ofJson (jsonOf iso changedAt jobName fieldName oldValue newValue) =
      .dict [(.str "job_name", ofJson jobName), (.str "changed_at", .str (iso.isoformat changedAt)),
        (.str "field_name", ofJson fieldName), (.str "old_value", ofJson oldValue),
        (.str "new_value", ofJson newValue)] := by
    simp [jsonOf, ofJson, ofMembers, Dict.assign]
  rw [read]
  show (do
    let changedAt ← timeOf iso (.str (iso.isoformat changedAt))
    return (⟨ofJson jobName, changedAt, ofJson fieldName, ofJson oldValue, ofJson newValue⟩ :
      ChangelogEntry)) = _
  rw [time]
  rfl

/-- An entry that is written comes back as it was exactly when it is native. -/
theorem returns_iff {entry : ChangelogEntry} {j : Value Number}
    (encoded : (entry.toDict iso).encode = some j) :
    fromDict iso (ofJson j) = .ok entry ↔ entry.Native := by
  obtain ⟨jobName, fieldName, oldValue, newValue, first, second, third, fourth, rfl⟩ :=
    encode_toDict encoded
  rw [fromDict_jsonOf]
  constructor
  · intro same
    have eq := Except.ok.inj same
    exact ⟨(ofJson_eq_iff first).mp (congrArg ChangelogEntry.jobName eq),
      (ofJson_eq_iff second).mp (congrArg ChangelogEntry.fieldName eq),
      (ofJson_eq_iff third).mp (congrArg ChangelogEntry.oldValue eq),
      (ofJson_eq_iff fourth).mp (congrArg ChangelogEntry.newValue eq)⟩
  · intro native
    rw [(ofJson_eq_iff first).mpr native.jobName, (ofJson_eq_iff second).mpr native.fieldName,
      (ofJson_eq_iff third).mpr native.oldValue, (ofJson_eq_iff fourth).mpr native.newValue]

variable (iso) in
/-- A native entry can be written. -/
theorem Native.encodes {entry : ChangelogEntry} (native : entry.Native) :
    ∃ j, (entry.toDict iso).encode = some j := by
  obtain ⟨jobName, first, -⟩ := native_returns _ native.jobName
  obtain ⟨fieldName, second, -⟩ := native_returns _ native.fieldName
  obtain ⟨oldValue, third, -⟩ := native_returns _ native.oldValue
  obtain ⟨newValue, fourth, -⟩ := native_returns _ native.newValue
  refine ⟨jsonOf iso entry.changedAt jobName fieldName oldValue newValue, ?_⟩
  simp [toDict, PyValue.encode, encodeMembers, Key.name?, first, second, third, fourth, jsonOf]

end ChangelogEntry

namespace ChangelogStore

variable {iso : IsoFormat}

theorem load_list {s : ChangelogStore} {items : List PyValue} (loaded : s.load = .ok (.list items)) :
    ∃ js, encodeItems items = some js ∧ ofItems js = items := by
  refine nativeItems_return items ?_
  have native : (PyValue.list items).Native := by
    rw [load] at loaded
    split at loaded
    · cases loaded
      exact trivial
    · split at loaded
      · cases loaded
      · rename_i j _
        rw [← Except.ok.inj loaded]
        exact native_ofJson j
  exact native

/-- A list that is written whole is loaded again. -/
theorem load_written (js : List (Value Number)) :
    load { file := some (Value.array js).tokens } = .ok (.list (ofItems js)) := by
  rw [load]
  dsimp only
  rw [Json.parse_tokens]
  rfl

theorem allEntries_of_list {s : ChangelogStore} {items : List PyValue}
    (loaded : s.load = .ok (.list items)) :
    s.allEntries iso = items.mapM (ChangelogEntry.fromDict iso) := by
  rw [allEntries, loaded]
  rfl

/-- The record of an entry that can be written. -/
theorem record_loads {s : ChangelogStore} {items : List PyValue} {entry : ChangelogEntry}
    {j : Value Number} (loaded : s.load = .ok (.list items))
    (encoded : (entry.toDict iso).encode = some j) :
    (s.record (.ok ()) iso entry).1 = .ok () ∧
      (s.record (.ok ()) iso entry).2.load = .ok (.list (items ++ [ofJson j])) := by
  obtain ⟨js, written, read⟩ := load_list loaded
  have whole : (PyValue.list (items ++ [entry.toDict iso])).encode = some (.array (js ++ [j])) := by
    rw [PyValue.encode, encodeItems_append written, encoded]
    rfl
  have dumped := dump_of_encode _ _ whole
  have recorded : s.record (.ok ()) iso entry =
      (.ok (), { file := some (Value.array (js ++ [j])).tokens }) := by
    rw [record, loaded]
    dsimp only
    rw [save, dumped]
  have again := load_written (js ++ [j])
  rw [ofItems_append, read] at again
  rw [recorded]
  exact ⟨rfl, again⟩

theorem record_of_encoded {s : ChangelogStore} {items : List PyValue} {entry : ChangelogEntry}
    {j : Value Number} (loaded : s.load = .ok (.list items))
    (encoded : (entry.toDict iso).encode = some j) :
    (s.record (.ok ()) iso entry).1 = .ok () ∧
      (s.record (.ok ()) iso entry).2.allEntries iso =
        (items ++ [ofJson j]).mapM (ChangelogEntry.fromDict iso) := by
  obtain ⟨returned, again⟩ := record_loads loaded encoded
  exact ⟨returned, allEntries_of_list again⟩

/-- The record of an entry that cannot be written: nothing can be read any more. -/
theorem record_of_unencoded {s : ChangelogStore} {items : List PyValue} {entry : ChangelogEntry}
    (loaded : s.load = .ok (.list items)) (unencoded : (entry.toDict iso).encode = none) :
    (∃ e, (s.record (.ok ()) iso entry).1 = .error e) ∧
      (s.record (.ok ()) iso entry).2.allEntries iso = .error jsonDecodeError := by
  obtain ⟨js, written, -⟩ := load_list loaded
  have failed : (PyValue.list (items ++ [entry.toDict iso])).encode = none := by
    rw [PyValue.encode, encodeItems_append written, unencoded]
    rfl
  obtain ⟨raised, s', read, pending⟩ := dump_stops _ failed []
  obtain ⟨e, error⟩ := Option.ne_none_iff_exists'.mp raised
  have recorded : s.record (.ok ()) iso entry = (.error e,
      { file := some (PyValue.list (items ++ [entry.toDict iso])).dump.tokens }) := by
    rw [record, loaded]
    dsimp only
    rw [save, error]
  rw [recorded]
  refine ⟨⟨e, rfl⟩, ?_⟩
  rw [allEntries, load]
  dsimp only
  rw [Json.parse_of_pending read pending]
  rfl

/-- Without a list of entries in the file, or without its directory, nothing is written. -/
theorem record_unchanged {makedirs : Except PyException Unit} (entry : ChangelogEntry)
    {s : ChangelogStore} (early : ¬ (s.HoldsEntries iso ∧ makedirs = .ok ()))
    {entries : List ChangelogEntry} (readable : s.allEntries iso = .ok entries) :
    ∃ e, s.record makedirs iso entry = (.error e, s) := by
  rw [record]
  split
  · rename_i e _
    exact ⟨e, rfl⟩
  · rename_i items loaded
    rw [allEntries_of_list loaded] at readable
    cases makedirs with
    | error e => exact ⟨e, rfl⟩
    | ok _ => exact absurd ⟨⟨items, entries, loaded, readable⟩, rfl⟩ early
  · exact ⟨_, rfl⟩

theorem mapM_append_single_iff {items : List PyValue} {entries : List ChangelogEntry}
    (readable : items.mapM (ChangelogEntry.fromDict iso) = .ok entries) (data : PyValue)
    (entry : ChangelogEntry) :
    (items ++ [data]).mapM (ChangelogEntry.fromDict iso) = .ok (entries ++ [entry]) ↔
      ChangelogEntry.fromDict iso data = .ok entry := by
  rw [List.mapM_append, readable, List.mapM_cons, List.mapM_nil]
  cases ChangelogEntry.fromDict iso data with
  | error e =>
      constructor
      · rintro ⟨⟩
      · rintro ⟨⟩
  | ok read =>
      show Except.ok (entries ++ [read]) = _ ↔ _
      simp

/-- **When a record is atomic**: when its entry is native, or it does not get to the writing
of a file of entries. -/
theorem record_atomic_iff (makedirs : Except PyException Unit) (iso : IsoFormat)
    (entry : ChangelogEntry) (s : ChangelogStore) :
    Atomic makedirs iso entry s ↔
      (s.HoldsEntries iso ∧ makedirs = .ok () → entry.Native) := by
  by_cases early : s.HoldsEntries iso ∧ makedirs = .ok ()
  · obtain ⟨⟨items, entries, loaded, readable⟩, rfl⟩ := early
    have before : s.allEntries iso = .ok entries := (allEntries_of_list loaded).trans readable
    have holds : s.HoldsEntries iso := ⟨items, entries, loaded, readable⟩
    cases encoded : (entry.toDict iso).encode with
    | none =>
        obtain ⟨⟨e, raised⟩, lost⟩ := record_of_unencoded loaded encoded
        constructor
        · intro atomic
          have kept := atomic.raised e entries raised before
          rw [lost] at kept
          cases kept
        · intro native
          obtain ⟨j, written⟩ := (native ⟨holds, rfl⟩).encodes iso
          rw [encoded] at written
          cases written
    | some j =>
        obtain ⟨returned, after⟩ := record_of_encoded loaded encoded
        have added := mapM_append_single_iff readable (ofJson j) entry
        rw [← after, ChangelogEntry.returns_iff encoded] at added
        constructor
        · exact fun atomic _ => added.mp (atomic.returned entries returned before)
        · intro native
          constructor
          · intro e _ impossible
            rw [returned] at impossible
            cases impossible
          · intro entries' _ same
            rw [before] at same
            cases same
            exact added.mpr (native ⟨holds, rfl⟩)
  · refine ⟨fun _ reaches => absurd reaches early, fun _ => ⟨?_, ?_⟩⟩
    · intro e entries _ readable
      obtain ⟨e', unchanged⟩ := record_unchanged entry early readable
      rw [unchanged]
      exact readable
    · intro entries returned readable
      obtain ⟨e', unchanged⟩ := record_unchanged entry early readable
      rw [unchanged] at returned
      cases returned

/-! ## Entries that do not come back -/

/-- The first of June 2024, noon. -/
def noon : IsoFormat :=
  .sample (seconds 1717243200) "2024-06-01T12:00:00+00:00" (by decide)

def changedTo (fieldName : String) (newValue : PyValue) : ChangelogEntry where
  jobName := .str "backup"
  changedAt := seconds 1717243200
  fieldName := .str fieldName
  oldValue := .none
  newValue := newValue

/-- A store with one entry. -/
def oneEntry : ChangelogStore :=
  (record (.ok ()) noon (changedTo "schedule" (.str "0 3 * * *")) { file := none }).2

/-- An entry with a set raises and takes the entry before it away; one with a tuple is read
back with a list. -/
theorem set_and_tuple_lost :
    ¬ Atomic (.ok ()) noon (changedTo "tags" (.other "set")) oneEntry ∧
      ¬ Atomic (.ok ()) noon (changedTo "tags" (.tuple [.str "nightly"])) oneEntry := by
  have loaded : oneEntry.load =
      .ok (.list [(changedTo "schedule" (.str "0 3 * * *")).toDict noon]) := rfl
  have before : oneEntry.allEntries noon = .ok [changedTo "schedule" (.str "0 3 * * *")] := rfl
  constructor
  · intro atomic
    have unencoded : ((changedTo "tags" (.other "set")).toDict noon).encode = none := rfl
    obtain ⟨⟨e, raised⟩, lost⟩ := record_of_unencoded loaded unencoded
    have kept := atomic.raised e _ raised before
    rw [lost] at kept
    cases kept
  · intro atomic
    have added := atomic.returned _ rfl before
    have read : (record (.ok ()) noon (changedTo "tags" (.tuple [.str "nightly"])) oneEntry).2.allEntries
        noon = .ok [changedTo "schedule" (.str "0 3 * * *"),
          changedTo "tags" (.list [.str "nightly"])] := rfl
    rw [read] at added
    cases added

end ChangelogStore

end Cronwatch.Jobs
