/-
# Silence.Pause -- paused jobs, in memory and in a file

`PauseStore` reads its file once, when it is opened, and answers from memory; every
change is written to the file.  A query that finds an entry over deletes it and writes
the rest back.  The name of a job is the key of its record, not a field of it.
-/
import Cronwatch.Runtime.Clock
import Cronwatch.Theory.Dict
import Cronwatch.Theory.ExpiringMap

namespace Cronwatch.Silence

set_option autoImplicit false

open Cronwatch.Theory Cronwatch.Theory.ExpiringMap Cronwatch.Runtime

structure PauseEntry where
  jobName : String
  pausedAt : DateTime
  reason : Option String := none
  resumeAt : Option DateTime := none

structure PauseRecord where
  pausedAt : String
  reason : Option String
  resumeAt : Option String

namespace PauseEntry

def isIndefinite (entry : PauseEntry) : Bool := entry.resumeAt.isNone

def isExpired (now : DateTime) (entry : PauseEntry) : Bool :=
  match entry.resumeAt with
  | none => false
  | some resumeAt => resumeAt ≤ now

theorem isExpired_iff (now : DateTime) (entry : PauseEntry) :
    entry.isExpired now = true ↔ ¬ Open entry.resumeAt now := by
  unfold isExpired
  cases entry.resumeAt <;> simp

/-- The record of an entry in the file. -/
def record (iso : IsoFormat) (entry : PauseEntry) : PauseRecord where
  pausedAt := iso.isoformat entry.pausedAt
  reason := entry.reason
  resumeAt := entry.resumeAt.map iso.isoformat

/-- The entry read from the record under a name. -/
def ofRecord (iso : IsoFormat) (name : String) (data : PauseRecord) :
    Except PyException PauseEntry :=
  match iso.fromisoformat data.pausedAt with
  | .error e => .error e
  | .ok pausedAt =>
      match iso.read? data.resumeAt with
      | .error e => .error e
      | .ok resumeAt => .ok { jobName := name, pausedAt, reason := data.reason, resumeAt }

@[simp] theorem ofRecord_record (iso : IsoFormat) (entry : PauseEntry) :
    ofRecord iso entry.jobName (entry.record iso) = .ok entry := by
  simp [ofRecord, record, iso.roundTrip]

end PauseEntry

structure PauseStore where
  file : Option (Dict String PauseRecord) := none
  entries : Dict String PauseEntry := .empty

namespace PauseStore

variable (iso : IsoFormat)

/-- `PauseStore(path)`. -/
def load (file : Option (Dict String PauseRecord)) : Except PyException PauseStore :=
  match file with
  | none => .ok {}
  | some raw =>
      match raw.mapEntriesM (PauseEntry.ofRecord iso) with
      | .error e => .error e
      | .ok entries => .ok { file, entries }

def save (s : PauseStore) : PauseStore :=
  { s with file := some (s.entries.mapEntries fun _ entry => entry.record iso) }

def pause (utcnow : DateTime) (jobName : String) (reason : Option String)
    (resumeAt : Option DateTime) (s : PauseStore) : PauseEntry × PauseStore :=
  let entry : PauseEntry := { jobName, pausedAt := utcnow, reason, resumeAt }
  (entry, { s with entries := s.entries.set jobName entry }.save iso)

def resume (jobName : String) (s : PauseStore) : Bool × PauseStore :=
  if (s.entries.get? jobName).isSome then
    (true, { s with entries := s.entries.erase jobName }.save iso)
  else (false, s)

def isPaused (jobName : String) (now : DateTime) (s : PauseStore) : Bool × PauseStore :=
  match s.entries.get? jobName with
  | none => (false, s)
  | some entry =>
      if entry.isExpired now then
        (false, { s with entries := s.entries.erase jobName }.save iso)
      else (true, s)

def get (jobName : String) (s : PauseStore) : Option PauseEntry := s.entries.get? jobName

variable {iso} in
/-- **What a query can do**: there is no entry, or it is over and deleted, or it holds. -/
theorem isPaused_cases (s : PauseStore) (jobName : String) (now : DateTime) :
    (s.entries.get? jobName = none ∧ s.isPaused iso jobName now = (false, s)) ∨
    (∃ entry, s.entries.get? jobName = some entry ∧ ¬ Open entry.resumeAt now ∧
      s.isPaused iso jobName now =
        (false, { s with entries := s.entries.erase jobName }.save iso)) ∨
    (∃ entry, s.entries.get? jobName = some entry ∧ Open entry.resumeAt now ∧
      s.isPaused iso jobName now = (true, s)) := by
  rw [PauseStore.isPaused]
  cases s.entries.get? jobName with
  | none => exact .inl ⟨rfl, rfl⟩
  | some entry =>
      dsimp only
      by_cases expired : entry.isExpired now = true
      · rw [if_pos expired]
        exact .inr (.inl ⟨entry, rfl, (entry.isExpired_iff now).mp expired, rfl⟩)
      · rw [if_neg expired]
        exact .inr (.inr ⟨entry, rfl, not_not.mp (mt (entry.isExpired_iff now).mpr expired), rfl⟩)

/-- Memory and file agree, every entry is kept under its own name, and the entries that
still hold are those of `m`. -/
structure Keeps (now : DateTime) (s : PauseStore) (m : String → Option (Option DateTime)) :
    Prop where
  file : (s.file = none ∧ s.entries = .empty) ∨
    s.file = some (s.entries.mapEntries fun _ entry => entry.record iso)
  names : ∀ k entry, s.entries.get? k = some entry → entry.jobName = k
  agree : AgreeFrom now (fun k => (s.entries.get? k).map PauseEntry.resumeAt) m

namespace Keeps

variable {iso} {now later : DateTime} {s : PauseStore} {m : String → Option (Option DateTime)}

theorem empty (iso : IsoFormat) (now : DateTime) : Keeps iso now {} fun _ => none where
  file := .inl ⟨rfl, rfl⟩
  names := fun _ _ impossible => by cases impossible
  agree := AgreeFrom.refl now _

theorem wait (keeps : s.Keeps iso now m) (le : now ≤ later) : s.Keeps iso later m where
  file := keeps.file
  names := keeps.names
  agree := keeps.agree.wait le

/-- A store that is opened again has in memory what it had. -/
theorem load (keeps : s.Keeps iso now m) : PauseStore.load iso s.file = .ok s := by
  obtain ⟨file, entries⟩ := s
  rcases keeps.file with ⟨noFile, nothing⟩ | saved
  · dsimp only at noFile nothing
    subst noFile nothing
    rfl
  · have written : file = some (entries.mapEntries fun _ entry => entry.record iso) := saved
    subst written
    have back : (entries.mapEntries fun _ entry => entry.record iso).mapEntriesM
        (PauseEntry.ofRecord iso) = .ok entries := by
      refine Dict.mapEntriesM_mapEntries fun k entry found => ?_
      have name := keeps.names k entry found
      rw [← name]
      exact entry.ofRecord_record iso
    rw [PauseStore.load]
    simp only [back]

theorem pause (keeps : s.Keeps iso now m) (utcnow : DateTime) (jobName : String)
    (reason : Option String) (resumeAt : Option DateTime) :
    (s.pause iso utcnow jobName reason resumeAt).2.Keeps iso now
      (Function.update m jobName (some resumeAt)) where
  file := .inr rfl
  names := by
    intro k entry found
    rw [PauseStore.pause, save, Dict.get?_set] at found
    split at found
    · rename_i same
      cases found
      exact same.symm
    · exact keeps.names k entry found
  agree := by
    have view : (fun k => ((s.pause iso utcnow jobName reason resumeAt).2.entries.get? k).map
        PauseEntry.resumeAt) = Function.update (fun k => (s.entries.get? k).map
          PauseEntry.resumeAt) jobName (some resumeAt) := by
      funext k
      rw [PauseStore.pause, save, Dict.get?_set, Function.update_apply]
      split <;> rfl
    rw [view]
    exact keeps.agree.update jobName (some resumeAt)

/-- Memory and file without one job. -/
theorem names_erase (keeps : s.Keeps iso now m) (jobName : String) (k : String)
    (entry : PauseEntry) (found : (s.entries.erase jobName).get? k = some entry) :
    entry.jobName = k := by
  rw [Dict.get?_erase] at found
  split at found
  · cases found
  · exact keeps.names k entry found

theorem view_erase (s : PauseStore) (jobName : String) :
    (fun k => ((s.entries.erase jobName).get? k).map PauseEntry.resumeAt) =
      Function.update (fun k => (s.entries.get? k).map PauseEntry.resumeAt) jobName none := by
  funext k
  rw [Dict.get?_erase, Function.update_apply]
  split <;> rfl

theorem resume (keeps : s.Keeps iso now m) (jobName : String) :
    (s.resume iso jobName).2.Keeps iso now (Function.update m jobName none) := by
  have agree := keeps.agree.update jobName none
  rw [PauseStore.resume]
  split
  · refine ⟨.inr rfl, keeps.names_erase jobName, ?_⟩
    rw [← view_erase] at agree
    exact agree
  · rename_i absent
    have none_ : s.entries.get? jobName = none := by simpa using absent
    refine ⟨keeps.file, keeps.names, ?_⟩
    rw [Function.update_eq_self_iff.mpr (by simp [none_])] at agree
    exact agree

/-- **A query** answers whether the job's entry still holds, and deletes only what is
over. -/
theorem isPaused (keeps : s.Keeps iso now m) (jobName : String) :
    ((s.isPaused iso jobName now).1 = true ↔ Holds m jobName now) ∧
      (s.isPaused iso jobName now).2.Keeps iso now m := by
  rw [← keeps.agree jobName now le_rfl]
  rcases s.isPaused_cases jobName now with
    ⟨absent, same⟩ | ⟨entry, found, over_, same⟩ | ⟨entry, found, open_, same⟩
  · have ends : ¬ Holds (fun k => (s.entries.get? k).map PauseEntry.resumeAt) jobName now :=
      holds_of_none (by simp [absent]) now
    rw [same]
    exact ⟨by simpa using ends, keeps⟩
  · have ends : ¬ Holds (fun k => (s.entries.get? k).map PauseEntry.resumeAt) jobName now := by
      intro holds
      exact over_ ((holds_of_some (by simp [found]) now).mp holds)
    rw [same]
    refine ⟨by simpa using ends, .inr rfl, keeps.names_erase jobName, ?_⟩
    show AgreeFrom now (fun k => ((s.entries.erase jobName).get? k).map PauseEntry.resumeAt) m
    rw [view_erase]
    refine keeps.agree.purge fun k => ?_
    by_cases here : k = jobName
    · subst here
      exact .inr ⟨Function.update_self _ _ _, ends⟩
    · exact .inl (Function.update_of_ne here _ _)
  · have holds : Holds (fun k => (s.entries.get? k).map PauseEntry.resumeAt) jobName now :=
      (holds_of_some (by simp [found]) now).mpr open_
    rw [same]
    exact ⟨by simpa using holds, keeps⟩

end Keeps

end PauseStore

end Cronwatch.Silence
