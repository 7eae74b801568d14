/-
# Alerts.HeartbeatFiles -- a monitor on the files of a heartbeat store

`HeartbeatMonitor.tick` sees the jobs that `all` of its store lists.  A name whose file has
been overwritten under another one is not listed, and nobody is told when its job goes
silent.

`independent_iff`: the names of a set keep their heartbeats, in all runs over the set, and
every silent job is alerted, exactly when no two of the names become equal with `_` in place
of `/` and spaces.
-/
import Cronwatch.Alerts.HeartbeatMonitor
import Cronwatch.Jobs.HeartbeatStore

namespace Cronwatch.Alerts

set_option autoImplicit false

open Cronwatch.Theory Cronwatch.Theory.HoldOff Cronwatch.Runtime Cronwatch.Jobs
open Cronwatch.Jobs.HeartbeatStore (Op Kept Apart latest after all glob)

namespace HeartbeatMonitor

/-- No job is hidden: the first tick of a monitor alerts for every job whose last heartbeat
is older than its time to live. -/
def Watched (iso : IsoFormat) (ops : List Op) : Prop :=
  ∀ (send : Send) (defaultTtl : ℚ) (perJobTtl : Dict String ℚ), Returns send →
    (new defaultTtl perJobTtl).Nonnegative →
    ∀ listing d, listing.Perm (after iso ops).glob → all iso listing = .ok d →
      ∀ now jobName entry, latest jobName ops = some entry →
        (new defaultTtl perJobTtl).ttlFor jobName < entry.ageSeconds now →
        ∃ alert ∈ ((new defaultTtl perJobTtl).tick send now d).2.calls,
          alert.violation.jobName = jobName

theorem watched_of_kept {iso : IsoFormat} {names : Set String} {ops : List Op}
    (kept : Kept iso names ops) : Watched iso ops := by
  intro send defaultTtl perJobTtl returns nonneg listing d listed read now jobName entry beat silent
  obtain ⟨d', read', known⟩ := kept.all listing listed
  rw [read] at read'
  cases read'
  have among : (jobName, entry) ∈ d.entries := by
    rw [Dict.mem_entries_iff, known]
    exact beat
  have stale : ¬ entry.isAlive ((new defaultTtl perJobTtl).ttlFor jobName) now = true := by
    rw [HeartbeatEntry.isAlive, decide_eq_true_iff, not_le]
    exact silent
  obtain ⟨-, -, -, alerts⟩ := tickLoop_alerts returns d.entries nonneg (Stamped.start now)
  obtain ⟨t, acted, -, -⟩ := alerts jobName entry among stale
  obtain ⟨alert, called, same⟩ := List.mem_map.mp acted
  exact ⟨alert, called, (Prod.mk.inj same).1⟩

/-- **When heartbeats are independent**: exactly when no two names become equal with `_` in
place of `/` and spaces. -/
theorem independent_iff (iso : IsoFormat) (names : Set String) :
    (∀ ops : List Op, (∀ op ∈ ops, op.jobName ∈ names) → Kept iso names ops ∧ Watched iso ops) ↔
      Apart names := by
  constructor
  · intro independent name member name' member' shared
    by_contra differ
    refine HeartbeatStore.not_kept_of_shared member shared differ (independent _ ?_).1
    intro op performed
    rcases List.mem_cons.mp performed with rfl | last
    · exact member
    · rw [List.mem_singleton.mp last]
      exact member'
  · intro apart ops own
    have kept := HeartbeatStore.kept_of_apart iso apart own
    exact ⟨kept, watched_of_kept kept⟩

def midnights : IsoFormat := .sample 0 "1970-01-01T00:00:00+00:00" (by decide)

/-- `etl load` has a heartbeat, and then `etl_load`. -/
def etl : List Op := [.record "etl load" none 0, .record "etl_load" none 0]

/-- **A job is hidden**: asked for `etl load`, the store answers with `etl_load`, and it
lists no other job. -/
theorem etl_hidden :
    (after midnights etl).get midnights "etl load" = .ok (some ⟨"etl_load", 0⟩) ∧
      latest "etl load" etl = some ⟨"etl load", 0⟩ ∧
      (after midnights etl).files.keys = [HeartbeatStore.path "etl_load"] ∧
      ¬ Kept midnights Set.univ etl := by
  have shared : HeartbeatStore.safe "etl load" = HeartbeatStore.safe "etl_load" := by
    refine String.toList_inj.mp ?_
    simp only [HeartbeatStore.safe, underscored, String.toList_map]
    decide
  refine ⟨HeartbeatStore.get_of_shared shared, rfl, ?_,
    HeartbeatStore.not_kept_of_shared (Set.mem_univ _) shared (by decide)⟩
  show (HeartbeatStore.record midnights "etl_load" none 0
    (HeartbeatStore.record midnights "etl load" none 0 {}).2).2.files.keys = _
  have file := (HeartbeatStore.path_eq_iff _ _).mpr shared
  rw [HeartbeatStore.record_eq, HeartbeatStore.record_eq, file]
  simp [Dict.set, Dict.keys, Dict.empty, Dict.assign]

end HeartbeatMonitor

end Cronwatch.Alerts
