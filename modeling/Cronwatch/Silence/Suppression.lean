/-
# Silence.Suppression -- suppressed jobs and an explicit purge

`SuppressionStore` loads and rewrites its file on every call, as `MuteStore` does, but
its entries hold their times as text and are parsed when they are tested, and
`purge_expired` drops what is over.
-/
import Cronwatch.Runtime.Clock
import Cronwatch.Theory.Dict
import Cronwatch.Theory.ExpiringMap

namespace Cronwatch.Silence

set_option autoImplicit false

open Cronwatch.Theory Cronwatch.Theory.ExpiringMap Cronwatch.Runtime

structure SuppressionEntry where
  jobName : String
  reason : String
  suppressedAt : String
  expiresAt : Option String := none

namespace SuppressionEntry

variable (iso : IsoFormat)

def isExpired (now : DateTime) (entry : SuppressionEntry) : Except PyException Bool :=
  match entry.expiresAt with
  | none => .ok false
  | some expiresAt => (iso.fromisoformat expiresAt).map fun t => decide (t ≤ now)

def isActive (now : DateTime) (entry : SuppressionEntry) : Except PyException Bool :=
  (entry.isExpired iso now).map not

/-- An end that was written with `isoformat` is tested as the time it stands for. -/
theorem isActive_of_isoformat {iso : IsoFormat} {entry : SuppressionEntry}
    {ending : Option DateTime} (written : entry.expiresAt = ending.map iso.isoformat)
    (now : DateTime) : entry.isActive iso now = .ok (decide (Open ending now)) := by
  rw [isActive, isExpired, written]
  cases ending with
  | none => simp [Except.map]
  | some t => simp [Except.map, iso.roundTrip, ← decide_not]

end SuppressionEntry

/-- The file, when there is one. -/
structure SuppressionStore where
  file : Option (Dict String SuppressionEntry) := none

namespace SuppressionStore

def load (s : SuppressionStore) : Dict String SuppressionEntry := s.file.getD .empty

def save (data : Dict String SuppressionEntry) : SuppressionStore where
  file := some data

def suppress (iso : IsoFormat) (jobName reason : String) (expiresAt : Option DateTime)
    (now : DateTime) (s : SuppressionStore) : SuppressionEntry × SuppressionStore :=
  let entry : SuppressionEntry :=
    { jobName, reason, suppressedAt := iso.isoformat now, expiresAt := expiresAt.map iso.isoformat }
  (entry, save (s.load.set jobName entry))

def release (jobName : String) (s : SuppressionStore) : Bool × SuppressionStore :=
  if (s.load.get? jobName).isSome then (true, save (s.load.erase jobName)) else (false, s)

def isSuppressed (iso : IsoFormat) (jobName : String) (now : DateTime) (s : SuppressionStore) :
    Except PyException Bool :=
  match s.load.get? jobName with
  | none => .ok false
  | some entry => entry.isActive iso now

def purgeExpired (iso : IsoFormat) (now : DateTime) (s : SuppressionStore) :
    Except PyException (Nat × SuppressionStore) :=
  match s.load.filterM fun _ entry => entry.isActive iso now with
  | .error e => .error e
  | .ok data => .ok (s.load.entries.length - data.entries.length, save data)

@[simp] theorem load_save (data : Dict String SuppressionEntry) : (save data).load = data := rfl

/-- The entries in the file have these ends, as text, and those that still hold are
those of `m`. -/
def Keeps (iso : IsoFormat) (now : DateTime) (s : SuppressionStore)
    (m : String → Option (Option DateTime)) : Prop :=
  ∃ held : String → Option (Option DateTime),
    (∀ k, (s.load.get? k).map SuppressionEntry.expiresAt = (held k).map (·.map iso.isoformat)) ∧
      AgreeFrom now held m

namespace Keeps

variable {iso : IsoFormat} {now later : DateTime} {s : SuppressionStore}
  {m : String → Option (Option DateTime)}

theorem empty (iso : IsoFormat) (now : DateTime) : Keeps iso now {} fun _ => none :=
  ⟨fun _ => none, fun _ => rfl, AgreeFrom.refl now _⟩

theorem wait (keeps : s.Keeps iso now m) (le : now ≤ later) : s.Keeps iso later m := by
  obtain ⟨held, written, agree⟩ := keeps
  exact ⟨held, written, agree.wait le⟩

theorem suppress (keeps : s.Keeps iso now m) (jobName reason : String)
    (expiresAt : Option DateTime) (at_ : DateTime) :
    (s.suppress iso jobName reason expiresAt at_).2.Keeps iso now
      (Function.update m jobName (some expiresAt)) := by
  obtain ⟨held, written, agree⟩ := keeps
  refine ⟨_, fun k => ?_, agree.update jobName (some expiresAt)⟩
  rw [SuppressionStore.suppress, load_save, Dict.get?_set, Function.update_apply]
  split
  · rfl
  · exact written k

theorem release (keeps : s.Keeps iso now m) (jobName : String) :
    (s.release jobName).2.Keeps iso now (Function.update m jobName none) := by
  obtain ⟨held, written, agree⟩ := keeps
  refine ⟨_, fun k => ?_, agree.update jobName none⟩
  have erased : ((s.release jobName).2.load).get? k =
      if k = jobName then none else s.load.get? k := by
    rw [SuppressionStore.release]
    split
    · exact Dict.get?_erase s.load jobName k
    · rename_i absent
      split
      · rename_i same
        rw [same]
        simpa using absent
      · rfl
  rw [erased, Function.update_apply]
  split
  · rfl
  · exact written k

/-- The entry of a job and its end. -/
theorem entry_cases (written : ∀ k, (s.load.get? k).map SuppressionEntry.expiresAt =
      (m k).map (·.map iso.isoformat)) (k : String) :
    (s.load.get? k = none ∧ m k = none) ∨ ∃ entry ending, s.load.get? k = some entry ∧
      m k = some ending ∧ entry.expiresAt = ending.map iso.isoformat := by
  have same := written k
  cases found : s.load.get? k with
  | none =>
      rw [found] at same
      exact .inl ⟨rfl, Option.map_eq_none_iff.mp same.symm⟩
  | some entry =>
      rw [found] at same
      obtain ⟨ending, present, text⟩ := Option.map_eq_some_iff.mp same.symm
      exact .inr ⟨entry, ending, rfl, present, text.symm⟩

/-- **A query** answers whether the job's entry still holds. -/
theorem isSuppressed (keeps : s.Keeps iso now m) (jobName : String) :
    ∃ answer, s.isSuppressed iso jobName now = .ok answer ∧
      (answer = true ↔ Holds m jobName now) := by
  obtain ⟨held, written, agree⟩ := keeps
  rw [← agree jobName now le_rfl, SuppressionStore.isSuppressed]
  rcases entry_cases written jobName with ⟨absent, none_⟩ | ⟨entry, ending, found, present, text⟩
  · rw [absent]
    exact ⟨false, rfl, by simpa using holds_of_none none_ now⟩
  · rw [found]
    refine ⟨_, SuppressionEntry.isActive_of_isoformat text now, ?_⟩
    rw [holds_of_some present, decide_eq_true_iff]

/-- **A purge** drops only what is over. -/
theorem purgeExpired (keeps : s.Keeps iso now m) :
    ∃ n s', s.purgeExpired iso now = .ok (n, s') ∧ s'.Keeps iso now m := by
  obtain ⟨held, written, agree⟩ := keeps
  let active : String → SuppressionEntry → Bool := fun k _ => decide (Holds held k now)
  have verdicts : ∀ k entry, s.load.get? k = some entry →
      entry.isActive iso now = .ok (active k entry) := by
    intro k entry found
    rcases entry_cases written k with ⟨absent, -⟩ | ⟨entry', ending, found', present, text⟩
    · rw [absent] at found
      cases found
    · rw [found'] at found
      cases found
      rw [SuppressionEntry.isActive_of_isoformat text now]
      simp only [active, holds_of_some present]
  have filtered : s.load.filterM (fun _ entry => entry.isActive iso now) =
      .ok (s.load.filter active) := Dict.filterM_of_ok verdicts
  rw [SuppressionStore.purgeExpired, filtered]
  refine ⟨_, _, rfl, fun k => if Holds held k now then held k else none, fun k => ?_, ?_⟩
  · rw [load_save, Dict.get?_filter]
    dsimp only
    rcases entry_cases written k with ⟨absent, none_⟩ | ⟨entry, ending, found, present, text⟩
    · rw [absent, none_]
      split <;> rfl
    · by_cases holds : Holds held k now
      · rw [if_pos holds, found, present, Option.filter_some, if_pos (by simpa [active] using holds)]
        exact congrArg some text
      · rw [if_neg holds, found, Option.filter_some, if_neg (by simpa [active] using holds)]
        rfl
  · refine agree.purge fun k => ?_
    by_cases holds : Holds held k now
    · exact .inl (if_pos holds)
    · exact .inr ⟨if_neg holds, holds⟩

end Keeps

end SuppressionStore

end Cronwatch.Silence
