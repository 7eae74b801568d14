/-
# Jobs.ProfilingStore -- samples that outlive the process

`ProfilingStore` rewrites `profiling.json` at every record and clear, in place: the file is opened,
which empties it, and its text written bit by bit.  A text that does not parse is read as no
samples.  So a process that stops while it saves loses the samples of all jobs, and never a part of
them (`saver_inPlace`).

`profiling_life` follows a store through records, clears and stops, each with a new store behind it:
its statistics and its report are those of the samples since the last clear or loss.  `round`
stands for `round(_, 4)`, and `value` is the number that a sample is.
-/
import Cronwatch.Jobs.Profiling
import Cronwatch.Runtime.Json
import Cronwatch.Theory.AtomicSave
import Cronwatch.Theory.StableSort
import Mathlib.Data.String.Basic

namespace Cronwatch.Jobs

set_option autoImplicit false

open Cronwatch.Theory Cronwatch.Runtime
open Cronwatch.Theory.Json (Token)

namespace ProfilingStore

/-- `_data`. -/
abbrev Data := Dict String (List Number)

/-- The text of `profiling.json`, if there is one. -/
abbrev Disk := Option (List (Token Number))

def rows (data : Data) : PyValue :=
  .dict (data.entries.map fun e => (.str e.1, .list (e.2.map .number)))

def number? : PyValue → Option Number
  | .number n => some n
  | _ => none

/-- A member that the store has written. -/
def row? : Key × PyValue → Option (String × List Number)
  | (.str name, .list items) => (items.mapM number?).map fun samples => (name, samples)
  | _ => none

/-- A document that the store has written. -/
def data? : PyValue → Option Data
  | .dict entries =>
      (entries.mapM row?).map fun rows => rows.foldl (fun d e => d.set e.1 e.2) .empty
  | _ => none

/-- `_load`; a document that no store writes is taken as an empty one. -/
def load : Disk → Data
  | none => .empty
  | some text =>
      match Json.parse text with
      | none => .empty
      | some j => (data? (ofJson j)).getD .empty

/-- The file steps of `_save`: the text is made, the file opened, and the text written. -/
def save (data : Data) : List (Disk → Disk) :=
  match (rows data).dump.error with
  | some _ => []
  | none => Saver.writes (rows data).dump.tokens

inductive Op where
  | record (jobName : String) (durationSeconds : Number)
  | clear (jobName : String)

section Store

variable (round : Number → Number) (value : Number → ℚ)

/-- The samples behind a record or a clear. -/
def change : Op → Data → Data
  | .record jobName durationSeconds, data =>
      data.set jobName ((data.get? jobName).getD [] ++ [round durationSeconds])
  | .clear jobName, data => data.erase jobName

def saver : Saver Disk Data Op where
  read := load
  change := change round
  steps op data := save (change round op data)

def stats (jobName : String) (samples : List Number) : DurationStats where
  jobName := jobName
  samples := samples.map value

def statsFor (jobName : String) (data : Data) : DurationStats :=
  stats value jobName ((data.get? jobName).getD [])

def allJobNames (data : Data) : List String := data.keys

/-- `ProfilingReporter.build_report`. -/
def buildReport (data : Data) : ProfilingReport where
  rows := (sortedBy id false (allJobNames data)).map fun name => (statsFor value name data).row

/-! ## The file -/

theorem mapM_number? (samples : List Number) : (samples.map PyValue.number).mapM number? = some samples := by
  induction samples with
  | nil => rfl
  | cons n rest ih =>
      rw [List.map_cons, List.mapM_cons, ih]
      rfl

theorem mapM_row? (entries : List (String × List Number)) :
    (entries.map fun e => (Key.str e.1, PyValue.list (e.2.map .number))).mapM row? = some entries := by
  induction entries with
  | nil => rfl
  | cons e rest ih =>
      rw [List.map_cons, List.mapM_cons, ih, row?, mapM_number?]
      rfl

theorem data?_rows (data : Data) : data? (rows data) = some data := by
  rw [rows, data?, mapM_row?, Option.map_some]
  exact congrArg some (Dict.eq_of_entries (Dict.entries_foldl_set .empty data.keysNodup))

theorem native_numbers (samples : List Number) : NativeItems (samples.map PyValue.number) := by
  induction samples with
  | nil => exact trivial
  | cons n rest ih => exact ⟨trivial, ih⟩

theorem native_rows (data : Data) : (rows data).Native := by
  refine native_members (fun samples : List Number => .list (samples.map .number)) ?_ data.keysNodup
  intro e _
  exact native_numbers e.2

/-- The text of the samples: it is read back as them, and no part of it is read at all. -/
theorem load_text (data : Data) :
    save data = Saver.writes (rows data).dump.tokens ∧
      load (some (rows data).dump.tokens) = data ∧
        ∀ part rest, part ++ rest = (rows data).dump.tokens → rest ≠ [] → load (some part) = .empty := by
  obtain ⟨j, encoded, back⟩ := native_returns (rows data) (native_rows data)
  have written := dump_of_encode (rows data) j encoded
  refine ⟨?_, ?_, fun part rest cut more => ?_⟩
  · rw [save, written]
  · rw [load, written, Json.parse_tokens]
    dsimp only
    rw [back, data?_rows, Option.getD_some]
  · rw [written] at cut
    rw [load, Json.parse_of_cut cut more]

theorem length_save (data : Data) : (save data).length = (rows data).dump.tokens.length + 1 := by
  rw [(load_text data).1, Saver.length_writes]

/-- **Saving is in place**: between the first step and the last there are no samples to be read. -/
theorem saver_inPlace : (saver round).InPlace .empty where
  torn := by
    intro op disk n begun early
    obtain ⟨m, rfl⟩ := Nat.exists_eq_succ_of_ne_zero (Nat.ne_of_gt begun)
    change m + 1 < (save (change round op (load disk))).length at early
    rw [length_save] at early
    show load (Saver.after ((save (change round op (load disk))).take (m + 1)) disk) = .empty
    obtain ⟨steps, -, cut⟩ := load_text (change round op (load disk))
    rw [steps, Saver.after_take_writes]
    refine cut _ _ (List.take_append_drop m _) fun none_ => ?_
    rw [List.drop_eq_nil_iff] at none_
    exact absurd none_ (Nat.not_le_of_lt (Nat.lt_of_succ_lt_succ early))
  done := by
    intro op disk
    show load (Saver.after (save (change round op (load disk))) disk) = change round op (load disk)
    obtain ⟨steps, whole, -⟩ := load_text (change round op (load disk))
    rw [steps, Saver.after_writes, whole]

/-! ## The samples of a run -/

/-- The samples of a job since its last clear, or the last loss. -/
def sinceAfter (jobName : String) (samples : List Number) : Option Op → List Number
  | none => []
  | some (.record jobName' durationSeconds) =>
      if jobName' = jobName then samples ++ [round durationSeconds] else samples
  | some (.clear jobName') => if jobName' = jobName then [] else samples

def since (jobName : String) (story : List (Option Op)) : List Number :=
  story.foldl (sinceAfter round jobName) []

theorem sinceAfter_record (jobName : String) (samples : List Number) (jobName' : String)
    (durationSeconds : Number) :
    sinceAfter round jobName samples (some (.record jobName' durationSeconds)) =
      if jobName' = jobName then samples ++ [round durationSeconds] else samples :=
  rfl

theorem sinceAfter_clear (jobName : String) (samples : List Number) (jobName' : String) :
    sinceAfter round jobName samples (some (.clear jobName')) = if jobName' = jobName then [] else samples :=
  rfl

/-- The store has these samples, and names the jobs that have some. -/
structure Holds (data : Data) (kept : String → List Number) : Prop where
  each : ∀ jobName, (data.get? jobName).getD [] = kept jobName
  names : ∀ jobName, jobName ∈ data.keys ↔ kept jobName ≠ []

theorem Holds.redo {data : Data} {kept : String → List Number} (holds : Holds data kept)
    (event : Option Op) : Holds ((saver round).redo .empty data event) fun jobName =>
      sinceAfter round jobName (kept jobName) event := by
  cases event with
  | none =>
      refine ⟨fun _ => rfl, fun jobName => ?_⟩
      simp [Saver.redo, sinceAfter, Dict.keys, Dict.empty]
  | some op =>
      cases op with
      | record jobName durationSeconds =>
          refine ⟨fun other => ?_, fun other => ?_⟩
          · show ((data.set jobName _).get? other).getD [] = _
            rw [Dict.get?_set, sinceAfter_record, ← holds.each]
            by_cases same : other = jobName
            · subst same
              simp
            · rw [if_neg same, if_neg (Ne.symm same)]
          · show other ∈ (data.set jobName _).keys ↔ _
            rw [Dict.mem_keys_set, sinceAfter_record, holds.names]
            by_cases same : other = jobName
            · subst same
              simp
            · rw [if_neg (Ne.symm same)]
              simp [same]
      | clear jobName =>
          refine ⟨fun other => ?_, fun other => ?_⟩
          · show ((data.erase jobName).get? other).getD [] = _
            rw [Dict.get?_erase, sinceAfter_clear, ← holds.each]
            by_cases same : other = jobName
            · subst same
              simp
            · rw [if_neg same, if_neg (Ne.symm same)]
          · show other ∈ (data.erase jobName).keys ↔ _
            rw [Dict.mem_keys_iff, Dict.get?_erase, sinceAfter_clear]
            by_cases same : other = jobName
            · subst same
              simp
            · rw [if_neg same, if_neg (Ne.symm same), ← holds.names, Dict.mem_keys_iff]

variable {round value}

theorem holds_story (story : List (Option Op)) :
    Holds (story.foldl ((saver round).redo .empty) .empty) fun jobName => since round jobName story := by
  induction story using List.reverseRecOn with
  | nil => exact ⟨fun _ => rfl, fun _ => by simp [since, Dict.keys, Dict.empty]⟩
  | append_singleton before event ih =>
      have next := ih.redo round event
      simp only [since, List.foldl_append, List.foldl_cons, List.foldl_nil] at next ⊢
      exact next

/-- **The report** has the statistics of the jobs that have samples, in order of their names. -/
theorem Holds.report {data : Data} {kept : String → List Number} (holds : Holds data kept) :
    ((buildReport value data).rows.map ProfilingReportRow.jobName).Pairwise (· < ·) ∧
      ∀ row, row ∈ (buildReport value data).rows ↔
        ∃ jobName, kept jobName ≠ [] ∧ row = (stats value jobName (kept jobName)).row := by
  constructor
  · have names : (buildReport value data).rows.map ProfilingReportRow.jobName =
        sortedBy id false data.keys := by
      rw [buildReport, List.map_map]
      exact List.map_id _
    rw [names]
    have apart : (sortedBy id false data.keys).Nodup := (perm_sortedBy _).nodup_iff.mpr data.nodup_keys
    refine (pairwise_sortedBy data.keys).imp₂ ?_ apart
    exact fun _ _ before other => lt_of_le_of_ne before other
  · intro row
    rw [buildReport, List.mem_map]
    simp only [mem_sortedBy, allJobNames, holds.names, statsFor, holds.each]
    exact exists_congr fun jobName => and_congr_right fun _ => eq_comm

variable (round value)

/-- **The life of a profile.**  After any records and clears, with stops at any step of a save and a
new store behind each, from an absent file on: each event has been an operation, a loss of all
samples or nothing, and the file, the statistics of every job and the report are those of the
samples since the last clear or loss.  A save that is cut short begins the loss when the file is
opened, and ends it with the last token. -/
theorem profiling_life (events : List (Saver.Event Op)) :
    let store := (saver round).run events ((saver round).opened none)
    (∃ stories, List.Forall₂ Saver.Lived events stories ∧
      load store.disk = store.value ∧
      (∀ jobName, statsFor value jobName store.value =
        stats value jobName (since round jobName stories.flatten)) ∧
      ((buildReport value store.value).rows.map ProfilingReportRow.jobName).Pairwise (· < ·) ∧
      ∀ row, row ∈ (buildReport value store.value).rows ↔
        ∃ jobName, since round jobName stories.flatten ≠ [] ∧
          row = (stats value jobName (since round jobName stories.flatten)).row) ∧
    ∀ op n, ((saver round).step store (.stopped op n)).value =
      if n = 0 then store.value
      else if n ≤ (rows (change round op store.value)).dump.tokens.length then .empty
      else change round op store.value := by
  intro store
  have inPlace := saver_inPlace round
  have synced : load store.disk = store.value := inPlace.done.run_synced events none
  obtain ⟨stories, lived, told⟩ := inPlace.run_lived events none
  have holds : Holds store.value fun jobName => since round jobName stories.flatten := by
    rw [told]
    exact holds_story stories.flatten
  refine ⟨⟨stories, lived, synced, fun jobName => ?_, holds.report⟩, fun op n => ?_⟩
  · rw [statsFor, holds.each]
  · rw [inPlace.stop_eq synced op n]
    show (if n = 0 then _ else if n < (save (change round op store.value)).length then _ else _) = _
    rw [length_save]
    simp only [Nat.lt_succ_iff]
    rfl

end Store

/-- A record for one job that stops with the file just opened loses the samples of another. -/
example : ((saver id).run [.done (.record "etl" (.int 3)), .stopped (.record "backup" (.int 5)) 1]
    ((saver id).opened none)).value.keys = [] :=
  rfl

end ProfilingStore

end Cronwatch.Jobs
