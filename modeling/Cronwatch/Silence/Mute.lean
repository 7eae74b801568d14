/-
# Silence.Mute -- muted jobs, read from the file on every call

`MuteStore` keeps nothing in memory: every call loads the file, and a call that
changes it writes all entries back.  An entry that is over stays in the file and is
passed over when it is read.  The JSON text is taken to read back as what was written;
the times are text in it (`MuteRecord`).
-/
import Cronwatch.Runtime.Clock
import Cronwatch.Theory.Dict
import Cronwatch.Theory.ExpiringMap

namespace Cronwatch.Silence

set_option autoImplicit false

open Cronwatch.Theory Cronwatch.Theory.ExpiringMap Cronwatch.Runtime

structure MuteEntry where
  jobName : String
  mutedAt : DateTime
  /-- `none` is indefinite. -/
  mutedUntil : Option DateTime
  reason : String := ""

/-- What `to_dict` makes of an entry. -/
structure MuteRecord where
  jobName : String
  mutedAt : String
  mutedUntil : Option String
  reason : String

namespace MuteEntry

def isIndefinite (entry : MuteEntry) : Bool := entry.mutedUntil.isNone

def isActive (now : DateTime) (entry : MuteEntry) : Bool :=
  match entry.mutedUntil with
  | none => true
  | some mutedUntil => now < mutedUntil

def toDict (iso : IsoFormat) (entry : MuteEntry) : MuteRecord where
  jobName := entry.jobName
  mutedAt := iso.isoformat entry.mutedAt
  mutedUntil := entry.mutedUntil.map iso.isoformat
  reason := entry.reason

def fromDict (iso : IsoFormat) (data : MuteRecord) : Except PyException MuteEntry :=
  match iso.fromisoformat data.mutedAt with
  | .error e => .error e
  | .ok mutedAt =>
      match iso.read? data.mutedUntil with
      | .error e => .error e
      | .ok mutedUntil =>
          .ok { jobName := data.jobName, mutedAt, mutedUntil, reason := data.reason }

@[simp] theorem fromDict_toDict (iso : IsoFormat) (entry : MuteEntry) :
    fromDict iso (entry.toDict iso) = .ok entry := by
  simp [fromDict, toDict, iso.roundTrip]

theorem isActive_iff (now : DateTime) (entry : MuteEntry) :
    entry.isActive now = true ↔ Open entry.mutedUntil now := by
  unfold isActive
  cases entry.mutedUntil <;> simp

end MuteEntry

/-- The file, when there is one. -/
structure MuteStore where
  file : Option (Dict String MuteRecord) := none

namespace MuteStore

variable (iso : IsoFormat)

def load (s : MuteStore) : Except PyException (Dict String MuteEntry) :=
  match s.file with
  | none => .ok .empty
  | some raw => raw.mapEntriesM fun _ data => MuteEntry.fromDict iso data

def save (entries : Dict String MuteEntry) : MuteStore where
  file := some (entries.mapEntries fun _ entry => entry.toDict iso)

def mute (entry : MuteEntry) (s : MuteStore) : Except PyException MuteStore :=
  match s.load iso with
  | .error e => .error e
  | .ok entries => .ok (save iso (entries.set entry.jobName entry))

def unmute (jobName : String) (s : MuteStore) : Except PyException MuteStore :=
  match s.load iso with
  | .error e => .error e
  | .ok entries => .ok (save iso (entries.erase jobName))

def get (jobName : String) (s : MuteStore) : Except PyException (Option MuteEntry) :=
  (s.load iso).map (·.get? jobName)

def isMuted (jobName : String) (now : DateTime) (s : MuteStore) : Except PyException Bool :=
  match s.get iso jobName with
  | .error e => .error e
  | .ok none => .ok false
  | .ok (some entry) => .ok (entry.isActive now)

def allActive (now : DateTime) (s : MuteStore) : Except PyException (Dict String MuteEntry) :=
  (s.load iso).map fun entries => entries.filter fun _ entry => entry.isActive now

/-- What was saved is loaded. -/
@[simp] theorem load_save (entries : Dict String MuteEntry) :
    (save iso entries).load iso = .ok entries :=
  Dict.mapEntriesM_mapEntries fun _ entry _ => entry.fromDict_toDict iso

/-- The ends of all entries in the file. -/
def Keeps (s : MuteStore) (m : String → Option (Option DateTime)) : Prop :=
  ∃ entries, s.load iso = .ok entries ∧ ∀ k, (entries.get? k).map MuteEntry.mutedUntil = m k

namespace Keeps

variable {iso} {s : MuteStore} {m : String → Option (Option DateTime)}

theorem empty : Keeps iso {} fun _ => none := ⟨.empty, rfl, fun _ => rfl⟩

theorem mute (keeps : s.Keeps iso m) (entry : MuteEntry) :
    ∃ s', s.mute iso entry = .ok s' ∧
      s'.Keeps iso (Function.update m entry.jobName (some entry.mutedUntil)) := by
  obtain ⟨entries, loaded, same⟩ := keeps
  refine ⟨save iso (entries.set entry.jobName entry), by rw [MuteStore.mute, loaded],
    _, load_save iso _, fun k => ?_⟩
  rw [Dict.get?_set, Function.update_apply, ← same]
  split <;> rfl

theorem unmute (keeps : s.Keeps iso m) (jobName : String) :
    ∃ s', s.unmute iso jobName = .ok s' ∧ s'.Keeps iso (Function.update m jobName none) := by
  obtain ⟨entries, loaded, same⟩ := keeps
  refine ⟨save iso (entries.erase jobName), by rw [MuteStore.unmute, loaded],
    _, load_save iso _, fun k => ?_⟩
  rw [Dict.get?_erase, Function.update_apply, ← same]
  split <;> rfl

/-- **A query** answers whether the job's entry still holds. -/
theorem isMuted (keeps : s.Keeps iso m) (jobName : String) (now : DateTime) :
    ∃ answer, s.isMuted iso jobName now = .ok answer ∧ (answer = true ↔ Holds m jobName now) := by
  obtain ⟨entries, loaded, same⟩ := keeps
  rw [MuteStore.isMuted, MuteStore.get, loaded]
  have held := same jobName
  cases found : entries.get? jobName with
  | none =>
      rw [found] at held
      refine ⟨false, by simp [Except.map, found], ?_⟩
      simpa using holds_of_none held.symm now
  | some entry =>
      rw [found] at held
      refine ⟨entry.isActive now, by simp [Except.map, found], ?_⟩
      rw [holds_of_some held.symm, entry.isActive_iff]

end Keeps

end MuteStore

end Cronwatch.Silence
