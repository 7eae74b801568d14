/-
# Jobs.Cooldown -- a pause after every completion of a job

`CooldownTracker` keeps the last completion of each job and answers whether its cooldown is over,
and when it will be.  `serve` is a caller that starts a job only when it is not cooling down; the
runs it has let in complete at any time, also after others of the same job were let in.

`cooldown`: where completions are recorded in order of time, a start is refused exactly when some
completion since the last reset of the job lies less than its cooldown back.
-/
import Cronwatch.Jobs.Config
import Cronwatch.Runtime.Python
import Cronwatch.Theory.HoldOff
import Mathlib.Algebra.Order.Group.Int
import Mathlib.Tactic.Linarith

namespace Cronwatch.Jobs

set_option autoImplicit false

open Cronwatch.Theory Cronwatch.Theory.HoldOff Cronwatch.Runtime

structure CooldownPolicy where
  defaultSeconds : Int := 0
  perJob : Dict String Int := .empty

def CooldownPolicy.secondsFor (job : JobConfig) (policy : CooldownPolicy) : Int :=
  (policy.perJob.get? job.name).getD policy.defaultSeconds

structure CooldownTracker (policy : CooldownPolicy) where
  lastCompleted : Dict String DateTime := .empty

namespace CooldownTracker

variable {policy : CooldownPolicy}

def recordCompletion (job : JobConfig) (at_ : DateTime) (tracker : CooldownTracker policy) :
    CooldownTracker policy :=
  { lastCompleted := tracker.lastCompleted.set job.name at_ }

def isCoolingDown (job : JobConfig) (now : DateTime) (tracker : CooldownTracker policy) : Bool :=
  match tracker.lastCompleted.get? job.name with
  | none => false
  | some last =>
      if policy.secondsFor job ≤ 0 then false
      else now - last < seconds (policy.secondsFor job)

def nextAllowed (job : JobConfig) (tracker : CooldownTracker policy) : Option DateTime :=
  match tracker.lastCompleted.get? job.name with
  | none => none
  | some last =>
      if policy.secondsFor job ≤ 0 then none
      else some (last + seconds (policy.secondsFor job))

def reset (job : JobConfig) (tracker : CooldownTracker policy) : CooldownTracker policy :=
  { lastCompleted := tracker.lastCompleted.erase job.name }

/-! ## A caller -/

inductive Event where
  /-- The job is started, unless it is cooling down. -/
  | start (job : JobConfig) (now : DateTime)
  | completed (job : JobConfig) (at_ : DateTime)
  | reset (job : JobConfig)

inductive Entry where
  | started (job : JobConfig) (now : DateTime)
  | refused (job : JobConfig) (now : DateTime)
  | completed (job : JobConfig) (at_ : DateTime)
  | reset (job : JobConfig)
deriving DecidableEq

structure Served (policy : CooldownPolicy) where
  tracker : CooldownTracker policy := {}
  log : List Entry := []

def Served.step (s : Served policy) : Event → Served policy
  | .start job now =>
      { s with log := s.log ++
          [if s.tracker.isCoolingDown job now then .refused job now else .started job now] }
  | .completed job at_ =>
      { tracker := s.tracker.recordCompletion job at_, log := s.log ++ [.completed job at_] }
  | .reset job => { tracker := s.tracker.reset job, log := s.log ++ [.reset job] }

def serve (policy : CooldownPolicy) (events : List Event) : Served policy :=
  events.foldl Served.step {}

theorem serve_append_single (before : List Event) (event : Event) :
    serve policy (before ++ [event]) = (serve policy before).step event := by
  rw [serve, List.foldl_append]
  rfl

/-! ## What the tracker holds -/

/-- What an entry does to the record of its job. -/
def Entry.act? : Entry → Option (HoldOff.Entry String DateTime)
  | .completed job at_ => some (.act job.name at_)
  | .reset job => some (.release job.name)
  | .started _ _ | .refused _ _ => none

def acts (log : List Entry) : List (HoldOff.Entry String DateTime) := log.filterMap Entry.act?

def Event.completion? : Event → Option DateTime
  | .completed _ at_ => some at_
  | .start _ _ | .reset _ => none

/-- Completions are recorded in order of time. -/
def Nondecreasing (events : List Event) : Prop :=
  (events.filterMap Event.completion?).Pairwise (· ≤ ·)

/-- The cooldown of a completion of the job, with no reset of it since, is not over. -/
def Recent (policy : CooldownPolicy) (log : List Entry) (job : JobConfig) (now : DateTime) : Prop :=
  0 < policy.secondsFor job ∧ ∃ before completed at_ after, log = before ++ .completed completed at_ :: after ∧
    completed.name = job.name ∧ (∀ other, .reset other ∈ after → other.name ≠ job.name) ∧
      now < at_ + seconds (policy.secondsFor job)

/-- **The two answers agree**: a job is cooling down until the time it is next allowed. -/
theorem isCoolingDown_iff_nextAllowed (job : JobConfig) (now : DateTime) (tracker : CooldownTracker policy) :
    tracker.isCoolingDown job now = true ↔ ∃ next ∈ tracker.nextAllowed job, now < next := by
  rw [isCoolingDown, nextAllowed]
  cases tracker.lastCompleted.get? job.name with
  | none => simp
  | some last =>
      dsimp only
      split
      · simp
      · simp only [decide_eq_true_eq, Option.mem_some_iff, exists_eq_left']
        exact sub_lt_iff_lt_add'

theorem isCoolingDown_iff (job : JobConfig) (now : DateTime) (tracker : CooldownTracker policy) :
    tracker.isCoolingDown job now = true ↔ 0 < policy.secondsFor job ∧
      ∃ last, tracker.lastCompleted.get? job.name = some last ∧
        now < last + seconds (policy.secondsFor job) := by
  rw [isCoolingDown]
  cases tracker.lastCompleted.get? job.name with
  | none => simp
  | some last =>
      by_cases positive : 0 < policy.secondsFor job
      · simp [positive, sub_lt_iff_lt_add', not_le.mpr positive]
      · simp [positive, not_lt.mp positive]

/-- A completion of the job with no reset since, in the log of acts. -/
theorem exists_completed_iff (log : List Entry) (name : String) (p : DateTime → Prop) :
    (∃ before at_ after, acts log = before ++ .act name at_ :: after ∧ .release name ∉ after ∧ p at_) ↔
      ∃ before completed at_ after, log = before ++ .completed completed at_ :: after ∧
        completed.name = name ∧ (∀ other, .reset other ∈ after → other.name ≠ name) ∧ p at_ := by
  constructor
  · rintro ⟨before, at_, after, split, kept, holds⟩
    obtain ⟨front, back, rfl, -, rest⟩ := List.filterMap_eq_append_iff.mp split
    obtain ⟨skipped, entry, after', rfl, silent, acts_, tail⟩ := List.filterMap_eq_cons_iff.mp rest
    cases entry with
    | completed completed at_ =>
        cases acts_
        refine ⟨front ++ skipped, completed, at_, after', by simp, rfl, fun other member same => ?_, holds⟩
        refine kept ?_
        rw [← tail, List.mem_filterMap]
        exact ⟨_, member, by rw [Entry.act?, same]⟩
    | reset | started | refused => cases acts_
  · rintro ⟨before, completed, at_, after, rfl, rfl, kept, holds⟩
    refine ⟨acts before, at_, acts after, by simp [acts, Entry.act?], fun member => ?_, holds⟩
    obtain ⟨entry, among, released⟩ := List.mem_filterMap.mp member
    cases entry with
    | reset other =>
        have same : other.name = completed.name := by simpa [Entry.act?] using released
        exact kept other among same
    | completed | started | refused => simp [Entry.act?] at released

/-! ## The run -/

/-- The record of a job is its last completion that was not reset; completions come in order. -/
abbrev Tracks (s : Served policy) : Prop :=
  Recorded (fun _ t t' => t ≤ t') (acts s.log) s.tracker.lastCompleted

/-- A job is cooling down when some completion of it is recent. -/
theorem Tracks.isCoolingDown_iff {s : Served policy} (tracks : Tracks s) (job : JobConfig) (now : DateTime) :
    s.tracker.isCoolingDown job now = true ↔ Recent policy s.log job now := by
  rw [CooldownTracker.isCoolingDown_iff, Recent, ← exists_completed_iff]
  refine and_congr_right fun _ => ?_
  constructor
  · rintro ⟨last, held, within⟩
    rw [tracks.stamp] at held
    obtain ⟨before, after, split, kept⟩ := exists_of_lastAct held
    exact ⟨before, last, after, split, kept, within⟩
  · rintro ⟨before, at_, after, split, kept, within⟩
    rw [← List.append_nil after] at split
    obtain ⟨last, held, apart⟩ :=
      tracks.lastAct_of_kept (fun _ _ _ _ => le_trans) split kept
    rw [List.append_nil] at split
    rw [← split] at held
    refine ⟨last, (tracks.stamp _).trans held, ?_⟩
    rcases apart with rfl | later
    · exact within
    · exact within.trans_le (by linarith)

theorem Nondecreasing.front {before : List Event} {event : Event}
    (ordered : Nondecreasing (before ++ [event])) : Nondecreasing before ∧
      ∀ t ∈ before.filterMap Event.completion?, ∀ now ∈ event.completion?, t ≤ now := by
  obtain ⟨front, last⟩ := ordered_front ordered
  exact ⟨front, fun t member now timed => last now timed t member⟩

theorem mem_log_completed (events : List Event) (completed : JobConfig) (at_ : DateTime) :
    .completed completed at_ ∈ (serve policy events).log ↔ .completed completed at_ ∈ events := by
  induction events using List.reverseRecOn with
  | nil => simp [serve]
  | append_singleton before event ih =>
      rw [serve_append_single]
      cases event with
      | start job now =>
          have other : ∀ (b : Bool), (Entry.completed completed at_) ≠
              if b then .refused job now else .started job now := by
            intro b
            cases b <;> simp
          simp [Served.step, ih, other]
      | completed job at' => simp [Served.step, ih]
      | reset job => simp [Served.step, ih]

variable (policy) in
theorem tracks_serve {events : List Event} (ordered : Nondecreasing events) :
    Tracks (serve policy events) := by
  induction events using List.reverseRecOn with
  | nil => exact .start _
  | append_singleton before event ih =>
      obtain ⟨earlier, last⟩ := ordered.front
      have tracks := ih earlier
      rw [serve_append_single, Tracks]
      cases event with
      | start job now =>
          have silent : acts ((serve policy before).step (.start job now)).log =
              acts (serve policy before).log := by
            rw [Served.step, acts, List.filterMap_append, ← acts]
            cases (serve policy before).tracker.isCoolingDown job now <;> simp [Entry.act?]
          rw [silent]
          exact tracks
      | reset job =>
          rw [Served.step, acts, List.filterMap_append, ← acts]
          exact tracks.release job.name
      | completed job at_ =>
          rw [Served.step, acts, List.filterMap_append, ← acts]
          refine tracks.act fun latest held => ?_
          rw [tracks.stamp] at held
          obtain ⟨front, back, split, -⟩ := exists_of_lastAct held
          have member : HoldOff.Entry.act job.name latest ∈ acts (serve policy before).log := by simp [split]
          obtain ⟨entry, among, is⟩ := List.mem_filterMap.mp member
          cases entry with
          | completed other at' =>
              have same : other.name = job.name ∧ at' = latest := by simpa [Entry.act?] using is
              obtain ⟨-, rfl⟩ := same
              have recorded := (mem_log_completed before other at').mp among
              exact last at' (List.mem_filterMap.mpr ⟨_, recorded, rfl⟩) at_ rfl
          | reset | started | refused => simp [Entry.act?] at is

/-- A start is refused where the cooldown of a completion lasts, and let in where none does. -/
def Cooled (policy : CooldownPolicy) (before : List Entry) : Entry → Prop
  | .started job now => ¬ Recent policy before job now
  | .refused job now => Recent policy before job now
  | .completed _ _ | .reset _ => True

theorem cooled_log {events : List Event} (ordered : Nondecreasing events) :
    ∀ before entry after, (serve policy events).log = before ++ entry :: after →
      Cooled policy before entry := by
  induction events using List.reverseRecOn with
  | nil => exact forall_splits_nil
  | append_singleton before event ih =>
      obtain ⟨earlier, -⟩ := ordered.front
      have tracks := tracks_serve policy earlier
      rw [serve_append_single]
      cases event with
      | completed job at_ => exact (forall_splits_append_single _ _).mpr ⟨ih earlier, trivial⟩
      | reset job => exact (forall_splits_append_single _ _).mpr ⟨ih earlier, trivial⟩
      | start job now =>
          refine (forall_splits_append_single _ _).mpr ⟨ih earlier, ?_⟩
          split
          · rename_i cooling
            exact (tracks.isCoolingDown_iff job now).mp cooling
          · rename_i free
            exact free ∘ (tracks.isCoolingDown_iff job now).mpr

/-- **Every start keeps the cooldown.**  Where completions are recorded in order of time, in every
run, with any overlap of the jobs that were let in: a start is let in or refused by whether some
completion since the last reset of the job lies less than its cooldown back; and a job is cooling
down until the time at which the tracker says that it is next allowed. -/
theorem cooldown (policy : CooldownPolicy) (events : List Event) (ordered : Nondecreasing events) :
    (∀ before entry after, (serve policy events).log = before ++ entry :: after →
      Cooled policy before entry) ∧
    ∀ job now,
      ((serve policy events).tracker.isCoolingDown job now = true ↔
        Recent policy (serve policy events).log job now) ∧
      ((serve policy events).tracker.isCoolingDown job now = true ↔
        ∃ next ∈ (serve policy events).tracker.nextAllowed job, now < next) :=
  ⟨cooled_log ordered, fun job now => ⟨(tracks_serve policy ordered).isCoolingDown_iff job now,
    isCoolingDown_iff_nextAllowed job now _⟩⟩

/-- A cooldown of a minute, with a start during it and one after it. -/
theorem cooldown_backup :
    let backup : JobConfig := { name := "backup", schedule := "0 2 * * *", command := "backup.sh" }
    let policy : CooldownPolicy := { defaultSeconds := 60 }
    let events := [.completed backup 0, .start backup (seconds 30), .start backup (seconds 60)]
    Nondecreasing events ∧
      (serve policy events).log =
        [.completed backup 0, .refused backup (seconds 30), .started backup (seconds 60)] ∧
      Cooled policy [.completed backup 0] (.refused backup (seconds 30)) := by
  intro backup policy events
  have ordered : Nondecreasing events := by
    rw [Nondecreasing]
    decide
  have log : (serve policy events).log =
      [.completed backup 0, .refused backup (seconds 30), .started backup (seconds 60)] := by
    decide +kernel
  exact ⟨ordered, log, (cooldown policy events ordered).1 _ _ [.started backup (seconds 60)] log⟩

end CooldownTracker

end Cronwatch.Jobs
