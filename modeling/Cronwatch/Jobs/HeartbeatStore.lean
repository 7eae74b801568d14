/-
# Jobs.HeartbeatStore -- the last heartbeat of every job, in a file of its own

`record` writes the heartbeat of a job to a file that is named after the job, with `_` in
place of every `/` and every space, and `all` reads the files of the directory in whatever
order it lists them.

The directory is a map by job name that is kept under other keys (`Holds`), as long as no
two names in use become equal by that replacement (`kept_of_apart`).  Two that do share one
file, and the heartbeat of the one is lost to the other (`not_kept_of_shared`).  The files can
all be opened: names with a NUL, or too long for the file system, are left out.
-/
import Cronwatch.Jobs.Changelog
import Cronwatch.Jobs.Heartbeat
import Cronwatch.Jobs.SharedFiles
import Cronwatch.Theory.Renamed
import Mathlib.Data.List.Perm.Basic

namespace Cronwatch.Jobs

set_option autoImplicit false

open Cronwatch.Theory Cronwatch.Runtime
open Cronwatch.Theory.Json (Token)

/-- The text of every file of the directory, by its name. -/
structure HeartbeatStore where
  files : Dict String (List (Token Number)) := .empty

namespace HeartbeatStore

/-- `job_name.replace(os.sep, "_").replace(" ", "_")`. -/
def safe (jobName : String) : String := (underscored jobName).map fun c => if c = ' ' then '_' else c

def path (jobName : String) : String := safe jobName ++ ".heartbeat.json"

variable (iso : IsoFormat)

def payload (entry : HeartbeatEntry) : PyValue :=
  .dict [(.str "job_name", .str entry.jobName),
    (.str "last_success", .str (iso.isoformat entry.lastSuccess))]

/-- The entry that a file is read as. -/
def readText (text : List (Token Number)) : Except PyException HeartbeatEntry :=
  match Json.parse text with
  | none => .error jsonDecodeError
  | some j => do
      let jobName ← ChangelogEntry.item (ofJson j) "job_name"
      let lastSuccess ← ChangelogEntry.timeOf iso (← ChangelogEntry.item (ofJson j) "last_success")
      match jobName with
      | .str jobName => return { jobName, lastSuccess }
      -- `record` writes no other names
      | value => .error (.typeError s!"unhashable type: '{value.typeName}'")

/-- `record`; `ts` may be left out for the time of the clock. -/
def record (jobName : String) (ts : Option DateTime) (utcnow : DateTime) (store : HeartbeatStore) :
    Except PyException HeartbeatEntry × HeartbeatStore :=
  let entry : HeartbeatEntry := { jobName, lastSuccess := ts.getD utcnow }
  let written := (payload iso entry).dump
  match written.error with
  | some e => (.error e, store)
  | none => (.ok entry, { files := store.files.set (path jobName) written.tokens })

def get (jobName : String) (store : HeartbeatStore) : Except PyException (Option HeartbeatEntry) :=
  match store.files.get? (path jobName) with
  | none => .ok none
  | some text => (readText iso text).map some

/-- The loop over the listed files. -/
def collect (result : Dict String HeartbeatEntry) :
    List (List (Token Number)) → Except PyException (Dict String HeartbeatEntry)
  | [] => .ok result
  | text :: rest => do
      let entry ← readText iso text
      collect (result.set entry.jobName entry) rest

/-- The files that `glob("*.heartbeat.json")` matches. -/
def glob (store : HeartbeatStore) : List (String × List (Token Number)) :=
  store.files.entries.filter fun e => ".heartbeat.json".toList.isSuffixOf e.1.toList

/-- `all`, where the directory is listed in this order. -/
def all (listing : List (String × List (Token Number))) :
    Except PyException (Dict String HeartbeatEntry) :=
  collect iso .empty (listing.map Prod.snd)

/-- The file is unlinked if it is there. -/
def remove (jobName : String) (store : HeartbeatStore) : HeartbeatStore :=
  { files := store.files.erase (path jobName) }

/-! ## Runs -/

inductive Op where
  | record (jobName : String) (ts : Option DateTime) (utcnow : DateTime)
  | remove (jobName : String)

def Op.jobName : Op → String
  | .record jobName _ _ | .remove jobName => jobName

def perform (store : HeartbeatStore) : Op → HeartbeatStore
  | .record jobName ts utcnow => (store.record iso jobName ts utcnow).2
  | .remove jobName => store.remove jobName

/-- A directory that was empty, after these operations. -/
def after (ops : List Op) : HeartbeatStore := ops.foldl (perform iso) {}

/-- The last heartbeat of the job since its last removal, given that before an operation. -/
def latestAfter (jobName : String) (entry : Option HeartbeatEntry) : Op → Option HeartbeatEntry
  | .record name ts utcnow => if name = jobName then some ⟨jobName, ts.getD utcnow⟩ else entry
  | .remove name => if name = jobName then none else entry

def latest (jobName : String) (ops : List Op) : Option HeartbeatEntry :=
  ops.foldl (latestAfter jobName) none

/-- **Heartbeats are independent**: each of the names is given its last heartbeat, and in
whatever order the directory is listed, `all` has those of all jobs and nothing else. -/
structure Kept (names : Set String) (ops : List Op) : Prop where
  get : ∀ jobName ∈ names, (after iso ops).get iso jobName = .ok (latest jobName ops)
  all : ∀ listing, listing.Perm (after iso ops).glob →
    ∃ d, all iso listing = .ok d ∧ ∀ jobName, d.get? jobName = latest jobName ops

variable {iso}

/-! ### One file -/

/-- The text of an entry. -/
def text (iso : IsoFormat) (entry : HeartbeatEntry) : List (Token Number) :=
  (payload iso entry).dump.tokens

theorem payload_native (iso : IsoFormat) (entry : HeartbeatEntry) : (payload iso entry).Native := by
  refine ⟨⟨⟨_, rfl⟩, trivial, ⟨_, rfl⟩, trivial, trivial⟩, ?_⟩
  simp

/-- **The text of an entry** is read back as the entry. -/
theorem readText_text (entry : HeartbeatEntry) :
    (payload iso entry).dump.error = none ∧ readText iso (text iso entry) = .ok entry := by
  obtain ⟨written, j, parsed, value⟩ := native_roundTrip (payload_native iso entry)
  refine ⟨written, ?_⟩
  have time : ChangelogEntry.timeOf iso (.str (iso.isoformat entry.lastSuccess)) =
      .ok entry.lastSuccess := iso.roundTrip entry.lastSuccess
  rw [text, readText, parsed]
  dsimp only
  rw [value]
  show (do
    let lastSuccess ← ChangelogEntry.timeOf iso (.str (iso.isoformat entry.lastSuccess))
    return (⟨entry.jobName, lastSuccess⟩ : HeartbeatEntry)) = _
  rw [time]
  rfl

theorem record_eq (jobName : String) (ts : Option DateTime) (utcnow : DateTime)
    (store : HeartbeatStore) :
    store.record iso jobName ts utcnow = (.ok ⟨jobName, ts.getD utcnow⟩,
      { files := store.files.set (path jobName) (text iso ⟨jobName, ts.getD utcnow⟩) }) := by
  rw [record, (readText_text _).1]
  rfl

/-- Names share a file exactly when they are the same but for `/`, space and `_`. -/
theorem path_eq_iff (name name' : String) : path name = path name' ↔ safe name = safe name' := by
  constructor
  · intro same
    have lists := congrArg String.toList same
    rw [path, path, String.toList_append, String.toList_append] at lists
    exact String.toList_inj.mp (List.append_cancel_right lists)
  · intro same
    rw [path, path, same]

/-! ### The directory as a map -/

/-- The heartbeats that are held, if each operation is on its own job only. -/
def performed (d : Dict String HeartbeatEntry) : Op → Dict String HeartbeatEntry
  | .record jobName ts utcnow => d.set jobName ⟨jobName, ts.getD utcnow⟩
  | .remove jobName => d.erase jobName

def heartbeats (ops : List Op) : Dict String HeartbeatEntry := ops.foldl performed .empty

theorem get?_heartbeats (ops : List Op) (jobName : String) :
    (heartbeats ops).get? jobName = latest jobName ops := by
  induction ops using List.reverseRecOn with
  | nil => rfl
  | append_singleton before op ih =>
      rw [heartbeats, latest, List.foldl_concat, List.foldl_concat, ← heartbeats, ← latest, ← ih]
      cases op with
      | record name ts utcnow =>
          rw [performed, Dict.get?_set, latestAfter]
          by_cases here : jobName = name
          · rw [if_pos here, if_pos here.symm, here]
          · rw [if_neg here, if_neg (Ne.symm here)]
      | remove name =>
          rw [performed, Dict.get?_erase, latestAfter]
          by_cases here : jobName = name
          · rw [if_pos here, if_pos here.symm]
          · rw [if_neg here, if_neg (Ne.symm here)]

/-- Every heartbeat is one of its job. -/
theorem jobName_of_heartbeats {ops : List Op} {jobName : String} {entry : HeartbeatEntry}
    (held : (heartbeats ops).get? jobName = some entry) : entry.jobName = jobName := by
  rw [get?_heartbeats] at held
  induction ops using List.reverseRecOn with
  | nil => cases held
  | append_singleton before op ih =>
      rw [latest, List.foldl_concat, ← latest] at held
      cases op with
      | record name ts utcnow =>
          rw [latestAfter] at held
          split at held
          · cases held
            rfl
          · exact ih held
      | remove name =>
          rw [latestAfter] at held
          split at held
          · cases held
          · exact ih held

/-- The names of the held heartbeats are among those of the operations. -/
theorem names_of_heartbeats {names : Set String} {ops : List Op}
    (own : ∀ op ∈ ops, op.jobName ∈ names) : ∀ jobName ∈ (heartbeats ops).keys, jobName ∈ names := by
  induction ops using List.reverseRecOn with
  | nil => exact fun _ impossible => absurd impossible List.not_mem_nil
  | append_singleton before op ih =>
      have earlier := ih fun op' member => own op' (List.mem_append_left _ member)
      have last := own op (List.mem_append_right _ List.mem_cons_self)
      rw [heartbeats, List.foldl_concat, ← heartbeats]
      intro jobName held
      cases op with
      | record name ts utcnow =>
          rw [performed, Dict.mem_keys_set] at held
          rcases held with rfl | held
          · exact last
          · exact earlier jobName held
      | remove name =>
          rw [performed, Dict.mem_keys_iff, Dict.get?_erase] at held
          split at held
          · cases held
          · exact earlier jobName ((Dict.mem_keys_iff _ _).mpr held)

/-- No two of the names become equal. -/
def Apart (names : Set String) : Prop :=
  ∀ name ∈ names, ∀ name' ∈ names, safe name = safe name' → name = name'

variable {names : Set String} {ops : List Op}

theorem Apart.toldApart (apart : Apart names) (own : ∀ op ∈ ops, op.jobName ∈ names)
    {jobName : String} (member : jobName ∈ names) : ToldApart path (heartbeats ops) jobName :=
  fun name held same => apart name (names_of_heartbeats own name held) jobName member
    ((path_eq_iff name jobName).mp same)

/-- **The directory is the map**, kept under the names of the files. -/
theorem after_renamed (iso : IsoFormat) (apart : Apart names) (own : ∀ op ∈ ops, op.jobName ∈ names) :
    Renamed path (text iso) (heartbeats ops) (after iso ops).files := by
  induction ops using List.reverseRecOn with
  | nil => exact Renamed.empty
  | append_singleton before op ih =>
      have ownBefore := fun op' member => own op' (List.mem_append_left [op] member)
      have last := own op (List.mem_append_right _ List.mem_cons_self)
      have told := apart.toldApart ownBefore last
      rw [heartbeats, after, List.foldl_concat, List.foldl_concat, ← heartbeats, ← after]
      cases op with
      | record jobName ts utcnow =>
          rw [perform, record_eq]
          exact (ih ownBefore).set told _
      | remove jobName => exact (ih ownBefore).erase told

/-! ### What is read -/

/-- The texts of entries are collected one after the other. -/
theorem collect_texts {texts : List (List (Token Number))} {entries : List (String × HeartbeatEntry)}
    (read : List.Forall₂ (fun t e => t = text iso e.2 ∧ e.2.jobName = e.1) texts entries)
    (held : Dict String HeartbeatEntry) :
    collect iso held texts = .ok (entries.foldl (fun d e => d.set e.1 e.2) held) := by
  induction read generalizing held with
  | nil => rfl
  | @cons t e texts entries first _ ih =>
      obtain ⟨rfl, named⟩ := first
      rw [collect, (readText_text e.2).2, List.foldl_cons, ← ih, ← named]
      rfl

/-- All files that are named after jobs are matched. -/
theorem glob_of_renamed {ν : Type} {g : ν → List (Token Number)} {store : HeartbeatStore}
    {d : Dict String ν} (renamed : Renamed path g d store.files) : store.glob = store.files.entries := by
  refine List.filter_eq_self.mpr fun e member => ?_
  rw [renamed] at member
  obtain ⟨e', -, rfl⟩ := List.mem_map.mp member
  rw [List.isSuffixOf_iff_suffix, path, String.toList_append]
  exact List.suffix_append _ _

/-- **All heartbeats are read**, in whatever order the files are listed. -/
theorem all_of_renamed {store : HeartbeatStore} {d : Dict String HeartbeatEntry}
    (renamed : Renamed path (text iso) d store.files)
    (named : ∀ jobName entry, d.get? jobName = some entry → entry.jobName = jobName)
    {listing : List (String × List (Token Number))} (listed : listing.Perm store.glob) :
    ∃ d', all iso listing = .ok d' ∧ ∀ jobName, d'.get? jobName = d.get? jobName := by
  rw [glob_of_renamed renamed, renamed] at listed
  have read : List.Forall₂ (fun t e => t = text iso e.2 ∧ e.2.jobName = e.1)
      ((d.entries.map fun e => (path e.1, text iso e.2)).map Prod.snd) d.entries := by
    rw [List.map_map, List.forall₂_map_left_iff]
    refine List.forall₂_same.mpr fun e member => ⟨rfl, ?_⟩
    exact named e.1 e.2 ((d.mem_entries_iff e.1 e.2).mp member)
  obtain ⟨entries, reads, same⟩ := List.perm_comp_forall₂ (listed.map Prod.snd) read
  have nodup : (entries.map Prod.fst).Nodup := (same.map Prod.fst).nodup_iff.mpr d.keysNodup
  refine ⟨_, collect_texts reads .empty, fun jobName => Option.ext fun entry => ?_⟩
  rw [← Dict.mem_entries_iff, ← Dict.mem_entries_iff, Dict.entries_foldl_set .empty nodup]
  exact same.mem_iff

/-- **Names with files of their own** keep their heartbeats. -/
theorem kept_of_apart (iso : IsoFormat) (apart : Apart names) (own : ∀ op ∈ ops, op.jobName ∈ names) :
    Kept iso names ops := by
  have renamed := after_renamed iso apart own
  refine ⟨fun jobName member => ?_, fun listing listed => ?_⟩
  · rw [get, renamed.get? (apart.toldApart own member), get?_heartbeats]
    cases latest jobName ops with
    | none => rfl
    | some entry =>
        show (readText iso (text iso entry)).map some = _
        rw [(readText_text entry).2]
        rfl
  · obtain ⟨d, collected, same⟩ :=
      all_of_renamed renamed (fun _ _ => jobName_of_heartbeats) listed
    refine ⟨d, collected, fun jobName => ?_⟩
    rw [same, get?_heartbeats]

/-- Of two names that share a file the first is answered with the heartbeat of the second. -/
theorem get_of_shared {name name' : String} (shared : safe name = safe name') :
    (after iso [.record name none 0, .record name' none 0]).get iso name = .ok (some ⟨name', 0⟩) := by
  have file := (path_eq_iff name name').mpr shared
  show get iso name ((record iso name' none 0 (record iso name none 0 {}).2).2) = _
  rw [record_eq, record_eq, get, file, Dict.get?_set_self]
  show (readText iso (text iso ⟨name', 0⟩)).map some = _
  rw [(readText_text _).2]
  rfl

theorem not_kept_of_shared {name name' : String} (member : name ∈ names)
    (shared : safe name = safe name') (differ : name ≠ name') :
    ¬ Kept iso names [.record name none 0, .record name' none 0] := by
  intro kept
  have found := kept.get name member
  rw [get_of_shared shared] at found
  have own : latest name [.record name none 0, .record name' none 0] = some ⟨name, 0⟩ := by
    simp [latest, latestAfter, Ne.symm differ]
  rw [own] at found
  cases found
  exact differ rfl

end HeartbeatStore

end Cronwatch.Jobs
