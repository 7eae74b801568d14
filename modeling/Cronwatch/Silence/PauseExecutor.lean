/-
# Silence.PauseExecutor -- an executor that leaves out paused jobs

`PauseAwareExecutor.run` asks a `PauseStore` about the job and hands the job to the inner executor
only when it is not paused; the answer for a paused job carries the reason of its entry.  The
store deletes what it finds over, keeps its entries in a file and may be opened again at any
point.

`Plain` is the same executor with nothing but the history of what was asked of it: a job is paused
by the last pause or resume of it, if that is a pause whose end has not come.  `serve_refines`
says that the two return the same and run the same jobs.
-/
import Cronwatch.Jobs.Config
import Cronwatch.Jobs.Execution
import Cronwatch.Silence.PauseListing

namespace Cronwatch.Silence

set_option autoImplicit false

open Cronwatch.Theory Cronwatch.Theory.ExpiringMap Cronwatch.Runtime Cronwatch.Jobs

structure PauseSkipResult where
  jobName : String
  reason : Option String
deriving DecidableEq

namespace PauseSkipResult

def skipped (_ : PauseSkipResult) : Bool := true

def str (result : PauseSkipResult) : String :=
  let msg := s!"Job '{result.jobName}' is paused"
  match result.reason with
  | none => msg
  | some reason => if reason = "" then msg else msg ++ ": " ++ reason

end PauseSkipResult

namespace PauseAwareExecutor

/-- What a call of `run` comes to. -/
inductive Outcome where
  | ran (outcome : Except PyException ExecutionResult)
  | skipped (skip : PauseSkipResult)

/-- The wrapped executor, which may go by the jobs that it has run before. -/
abbrev Inner := List JobConfig → JobConfig → Except PyException ExecutionResult

structure State where
  store : PauseStore := {}
  /-- The jobs that the inner executor was given. -/
  calls : List JobConfig := []
  outcomes : List Outcome := []

variable (iso : IsoFormat) (inner : Inner)

def run (job : JobConfig) (now : DateTime) (s : State) : State :=
  match s.store.isPaused iso job.name now with
  | (true, store) =>
      { s with
        store
        outcomes := s.outcomes ++
          [.skipped { jobName := job.name, reason := (store.get job.name).bind PauseEntry.reason }] }
  | (false, store) =>
      { store
        calls := s.calls ++ [job]
        outcomes := s.outcomes ++ [.ran (inner s.calls job)] }

/-- A job that is to be run, or an operation on the store from elsewhere. -/
inductive Event where
  | run (job : JobConfig) (now : DateTime)
  | store (op : PauseOp)

def step (s : State) : Event → Except PyException State
  | .run job now => .ok (run iso inner job now s)
  | .store op => (s.store.step iso op).map fun store => { s with store }

def serve (events : List Event) : Except PyException State := events.foldlM (step iso inner) {}

/-! ## The executor without a store -/

/-- The time at which the store is asked. -/
def Event.time? : Event → Option DateTime
  | .run _ now | .store (.isPaused _ now) => some now
  | .store (.pause _ _ _ _) | .store (.resume _) | .store .reopen => none

/-- The entry that the event makes for the job, `some none` where it deletes it. -/
def Event.writes? (jobName : String) : Event → Option (Option PauseEntry)
  | .store (.pause job reason resumeAt utcnow) =>
      if job = jobName then some (some { jobName := job, pausedAt := utcnow, reason, resumeAt })
      else none
  | .store (.resume job) => if job = jobName then some none else none
  | .store (.isPaused _ _) | .store .reopen | .run _ _ => none

/-- What the last pause or resume of the job has left. -/
def latest (events : List Event) (jobName : String) : Option PauseEntry :=
  (events.reverse.findSome? (Event.writes? jobName)).join

/-- The pause of the job, where its end has not come. -/
def pausedBy (events : List Event) (jobName : String) (now : DateTime) : Option PauseEntry :=
  current PauseEntry.resumeAt (latest events) jobName now

structure Plain where
  history : List Event := []
  calls : List JobConfig := []
  outcomes : List Outcome := []

def Plain.step (s : Plain) (event : Event) : Plain :=
  match event with
  | .store _ => { s with history := s.history ++ [event] }
  | .run job now =>
      match pausedBy s.history job.name now with
      | some entry =>
          { s with
            history := s.history ++ [event]
            outcomes := s.outcomes ++ [.skipped { jobName := job.name, reason := entry.reason }] }
      | none =>
          { history := s.history ++ [event]
            calls := s.calls ++ [job]
            outcomes := s.outcomes ++ [.ran (inner s.calls job)] }

def plain (events : List Event) : Plain := events.foldl (Plain.step inner) {}

theorem plain_append_single (before : List Event) (event : Event) :
    plain inner (before ++ [event]) = (plain inner before).step inner event := by
  rw [plain, List.foldl_append]
  rfl

theorem history_plain (events : List Event) : (plain inner events).history = events := by
  induction events using List.reverseRecOn with
  | nil => rfl
  | append_singleton before event ih =>
      rw [plain_append_single]
      cases event with
      | store op => simp [Plain.step, ih]
      | run job now =>
          rw [Plain.step]
          split <;> simp [ih]

theorem latest_append_single (before : List Event) (event : Event) (jobName : String) :
    latest (before ++ [event]) jobName = (event.writes? jobName).getD (latest before jobName) := by
  rw [latest, List.reverse_append, List.reverse_singleton, List.singleton_append,
    List.findSome?_cons]
  cases event.writes? jobName <;> rfl

theorem latest_of_quiet {before : List Event} {event : Event}
    (quiet : ∀ jobName, event.writes? jobName = none) : latest (before ++ [event]) = latest before := by
  funext jobName
  rw [latest_append_single, quiet, Option.getD_none]

/-! ## The store shows what the history says -/

/-- File and memory agree, and from now on memory shows the pauses in force. -/
structure Tracks (now : DateTime) (store : PauseStore) (events : List Event) : Prop where
  sound : store.Sound iso
  shows_ : SameFrom PauseEntry.resumeAt now store.entries.get? (latest events)

variable {iso inner} {now later : DateTime} {store : PauseStore} {events : List Event}

theorem Tracks.wait (tracks : Tracks iso now store events) (le : now ≤ later) :
    Tracks iso later store events :=
  ⟨tracks.sound, tracks.shows_.wait le⟩

/-- A query answers with the pause in force, and deletes only what is over. -/
theorem Tracks.query (tracks : Tracks iso now store events) (jobName : String) :
    (∀ event, (∀ job, event.writes? job = none) →
        Tracks iso now (store.isPaused iso jobName now).2 (events ++ [event])) ∧
      ((store.isPaused iso jobName now).1 = false ∧ pausedBy events jobName now = none ∨
        (store.isPaused iso jobName now).1 = true ∧ ∃ entry,
          pausedBy events jobName now = some entry ∧
            (store.isPaused iso jobName now).2.get jobName = some entry) := by
  have same := tracks.shows_ jobName now le_rfl
  have sound := ((tracks.sound now).isPaused jobName).2.sound
  rcases store.isPaused_cases jobName now with
    ⟨absent, answer⟩ | ⟨entry, found, over_, answer⟩ | ⟨entry, found, open_, answer⟩
  · rw [answer]
    refine ⟨fun event quiet => ?_, .inl ⟨rfl, ?_⟩⟩
    · exact ⟨tracks.sound, (latest_of_quiet quiet).symm ▸ tracks.shows_⟩
    · rw [pausedBy, ← same, current_of_none _ absent]
  · have nothing : current PauseEntry.resumeAt store.entries.get? jobName now = none := by
      rw [current_of_some _ found, if_neg over_]
    rw [answer] at sound ⊢
    refine ⟨fun event quiet => ⟨sound, ?_⟩, .inl ⟨rfl, ?_⟩⟩
    · rw [latest_of_quiet quiet]
      refine tracks.shows_.purge fun k => ?_
      have left : (store.entries.erase jobName).get? k = if k = jobName then none else store.entries.get? k :=
        Dict.get?_erase _ _ _
      by_cases here : k = jobName
      · subst here
        rw [if_pos rfl] at left
        exact .inr ⟨left, nothing⟩
      · rw [if_neg here] at left
        exact .inl left
    · rw [pausedBy, ← same, nothing]
  · rw [answer]
    refine ⟨fun event quiet => ?_, .inr ⟨rfl, entry, ?_, found⟩⟩
    · exact ⟨tracks.sound, (latest_of_quiet quiet).symm ▸ tracks.shows_⟩
    · rw [pausedBy, ← same, current_of_some _ found, if_pos open_]

/-- An operation on the store never fails. -/
theorem Tracks.step (tracks : Tracks iso now store events) (op : PauseOp)
    (time : ∀ t ∈ (Event.store op).time?, t = now) :
    ∃ store', store.step iso op = .ok store' ∧ Tracks iso now store' (events ++ [.store op]) := by
  cases op with
  | pause job reason resumeAt utcnow =>
      refine ⟨_, rfl, ((tracks.sound now).pause utcnow job reason resumeAt).sound, ?_⟩
      convert tracks.shows_.update job
        (some { jobName := job, pausedAt := utcnow, reason, resumeAt }) using 1
      · funext k
        rw [PauseStore.pause, PauseStore.save, Dict.get?_set, Function.update_apply]
      · funext k
        rw [latest_append_single, Event.writes?, Function.update_apply]
        by_cases here : k = job
        · simp [here]
        · simp [here, Ne.symm here]
  | resume job =>
      refine ⟨_, rfl, ((tracks.sound now).resume job).sound, ?_⟩
      convert tracks.shows_.update job none using 1
      · funext k
        rw [Function.update_apply, PauseStore.resume]
        split
        · exact Dict.get?_erase _ _ _
        · rename_i absent
          split
          · rename_i here
            rw [here, Option.not_isSome_iff_eq_none.mp absent]
          · rfl
      · funext k
        rw [latest_append_single, Event.writes?, Function.update_apply]
        by_cases here : k = job
        · simp [here]
        · simp [here, Ne.symm here]
  | isPaused job at_ =>
      obtain rfl : at_ = now := time at_ rfl
      exact ⟨_, rfl, (tracks.query job).1 _ fun _ => rfl⟩
  | reopen =>
      have quiet : ∀ job, (Event.store .reopen).writes? job = none := fun _ => rfl
      exact ⟨store, (tracks.sound 0).load, tracks.sound, (latest_of_quiet quiet).symm ▸ tracks.shows_⟩

/-! ## Every run -/

/-- The store is asked in order of time. -/
def Nondecreasing (events : List Event) : Prop := (events.filterMap Event.time?).Pairwise (· ≤ ·)

/-- The times are in order up to the last event, and that is asked last. -/
theorem Nondecreasing.append_single {before : List Event} {event : Event}
    (ordered : Nondecreasing (before ++ [event])) : Nondecreasing before ∧
      ∀ now ∈ event.time?, ∀ e ∈ before, ∀ t ∈ e.time?, t ≤ now := by
  rw [Nondecreasing, List.filterMap_append, List.pairwise_append] at ordered
  refine ⟨ordered.1, fun now timed e member t at_ => ?_⟩
  refine ordered.2.2 t (List.mem_filterMap.mpr ⟨e, member, at_⟩) now ?_
  rw [List.mem_filterMap]
  exact ⟨event, List.mem_singleton_self event, timed⟩

variable (iso inner)

theorem serve_append_single (before : List Event) (event : Event) {s : State}
    (served : serve iso inner before = .ok s) :
    serve iso inner (before ++ [event]) = step iso inner s event := by
  rw [serve, List.foldlM_append, ← serve, served]
  show (step iso inner s event >>= fun s => pure s) = _
  rw [bind_pure]

/-- The two executors side by side: what they have run and returned, and what the store shows
from any time on at which it may be asked next. -/
structure Refines (events : List Event) (s : State) : Prop where
  calls : s.calls = (plain inner events).calls
  outcomes : s.outcomes = (plain inner events).outcomes
  sound : s.store.Sound iso
  tracks : ∀ now, (∀ e ∈ events, ∀ t ∈ e.time?, t ≤ now) → Tracks iso now s.store events

variable {iso inner}

/-- A job that is run. -/
theorem Refines.run {s : State} (refines : Refines iso inner events s) (job : JobConfig)
    {now : DateTime} (last : ∀ e ∈ events, ∀ t ∈ e.time?, t ≤ now) :
    Refines iso inner (events ++ [.run job now]) (run iso inner job now s) := by
  have known : (plain inner events).history = events := history_plain inner events
  obtain ⟨tracks, answer⟩ := (refines.tracks now last).query job.name
  have later : ∀ t, (∀ e ∈ events ++ [.run job now], ∀ t' ∈ e.time?, t' ≤ t) → now ≤ t :=
    fun t all => all (.run job now) (by simp) now rfl
  rw [PauseAwareExecutor.run]
  have sound := (tracks (.run job now) fun _ => rfl).sound
  generalize s.store.isPaused iso job.name now = asked at tracks answer sound
  obtain ⟨paused, store⟩ := asked
  rcases answer with ⟨no, free⟩ | ⟨yes, entry, held, got⟩
  · dsimp only at no
    subst no
    refine ⟨?_, ?_, sound, fun t all => (tracks _ fun _ => rfl).wait (later t all)⟩
    · rw [plain_append_single, Plain.step, known, free, refines.calls]
    · rw [plain_append_single, Plain.step, known, free, refines.outcomes, refines.calls]
  · dsimp only at yes got
    subst yes
    refine ⟨?_, ?_, sound, fun t all => (tracks _ fun _ => rfl).wait (later t all)⟩
    · rw [plain_append_single, Plain.step, known, held, refines.calls]
    · rw [plain_append_single, Plain.step, known, held, refines.outcomes]
      dsimp only
      rw [got, Option.bind_some]

/-- An operation on the store from elsewhere. -/
theorem Refines.operation {s : State} (refines : Refines iso inner events s) (op : PauseOp)
    (last : ∀ now ∈ (Event.store op).time?, ∀ e ∈ events, ∀ t ∈ e.time?, t ≤ now) :
    ∃ s', step iso inner s (.store op) = .ok s' ∧ Refines iso inner (events ++ [.store op]) s' := by
  obtain ⟨store', stepped, sound, -⟩ := PauseStore.step_sound refines.sound op
  have tracks : ∀ now, (∀ e ∈ events, ∀ t ∈ e.time?, t ≤ now) →
      (∀ t ∈ (Event.store op).time?, t = now) → Tracks iso now store' (events ++ [.store op]) := by
    intro now bound time
    obtain ⟨store'', stepped', tracks⟩ := (refines.tracks now bound).step op time
    cases stepped.symm.trans stepped'
    exact tracks
  refine ⟨{ s with store := store' }, by rw [step, stepped]; rfl, ?_, ?_, sound, fun t all => ?_⟩
  · rw [plain_append_single, Plain.step]
    exact refines.calls
  · rw [plain_append_single, Plain.step]
    exact refines.outcomes
  · cases timed : (Event.store op).time? with
    | some now =>
        have le : now ≤ t := all (.store op) (by simp) now timed
        refine (tracks now (last now timed) fun t' at_ => ?_).wait le
        exact (Option.some_inj.mp (timed.symm.trans at_)).symm
    | none =>
        refine tracks t (fun e member => all e (List.mem_append_left _ member)) fun t' at_ => ?_
        rw [timed] at at_
        cases at_

/-- **The executor needs no more than the history.**  As long as the store is asked in order of
time, the executor with the store never fails itself, runs the jobs that the one without runs, and
returns the same: what the inner executor comes to, or a skip with the reason of the pause in
force.  Deleting entries, writing the file and reading it again make no difference. -/
theorem serve_refines (iso : IsoFormat) (inner : Inner) (events : List Event)
    (ordered : Nondecreasing events) :
    ∃ s, serve iso inner events = .ok s ∧ s.calls = (plain inner events).calls ∧
      s.outcomes = (plain inner events).outcomes := by
  have all : ∃ s, serve iso inner events = .ok s ∧ Refines iso inner events s := by
    induction events using List.reverseRecOn with
    | nil =>
        have sound : ({} : PauseStore).Sound iso := fun now => .empty iso now
        exact ⟨{}, rfl, rfl, rfl, sound, fun now _ => ⟨sound, .refl now _⟩⟩
    | append_singleton before event ih =>
        obtain ⟨earlier, last⟩ := ordered.append_single
        obtain ⟨s, served, refines⟩ := ih earlier
        rw [serve_append_single iso inner before event served]
        cases event with
        | run job now => exact ⟨_, rfl, refines.run job (last now rfl)⟩
        | store op => exact refines.operation op last
  obtain ⟨s, served, refines⟩ := all
  exact ⟨s, served, refines.calls, refines.outcomes⟩

/-- The backup of every night. -/
def backup : JobConfig where
  name := "backup"
  schedule := "0 2 * * *"
  command := "backup.sh"

def noSpace : Inner := fun _ _ => .error (.foreign "no space left")

/-- A pause that runs out, with the store opened again meanwhile. -/
def maintenance : List Event := [
  .store (.pause "backup" (some "maintenance") (some (seconds 60)) 0), .run backup (seconds 10),
  .store .reopen, .run backup (seconds 60), .run backup (seconds 61)]

theorem serve_maintenance : Nondecreasing maintenance ∧
    (∃ s, serve firstMinute noSpace maintenance = .ok s ∧ s.calls = [backup, backup] ∧
      s.outcomes = [.skipped ⟨"backup", some "maintenance"⟩, .ran (.error (.foreign "no space left")),
        .ran (.error (.foreign "no space left"))]) := by
  have ordered : Nondecreasing maintenance := by
    rw [Nondecreasing]
    decide
  exact ⟨ordered, serve_refines firstMinute noSpace maintenance ordered⟩

end PauseAwareExecutor

end Cronwatch.Silence
