/-
# Alerts.HeartbeatMonitor -- alerts for jobs that went silent

`tick` goes through what the heartbeat store lists and alerts for every entry older
than the job's time to live, unless an alert for the job is no older than that itself.
The alerter is code handed in; `calls` are the alerts it was called with, and an
exception leaves `tick` at once.

`World` is the monitor beside the heartbeats recorded so far; the store is what it
lists of them (`all`).  The stamps of past alerts are never cleared when a job
recovers, and need not be (`outages_alerted`): an alert that still holds off a new one
is younger than the time to live, so it came after the heartbeat that is too old.
-/
import Cronwatch.Jobs.Heartbeat
import Cronwatch.Theory.HoldOff
import Cronwatch.Theory.Loop
import Mathlib.Data.Int.ConditionallyCompleteOrder
import Mathlib.Tactic.Linarith

namespace Cronwatch.Alerts

set_option autoImplicit false

open Cronwatch.Theory Cronwatch.Theory.HoldOff Cronwatch.Theory.Loop Cronwatch.Runtime
  Cronwatch.Jobs

structure HeartbeatViolation where
  jobName : String
  lastSuccess : DateTime
  ageSeconds : ℚ
  ttlSeconds : ℚ
deriving DecidableEq

namespace HeartbeatViolation

def str (v : HeartbeatViolation) : String :=
  v.jobName ++ ": heartbeat expired (age=" ++ fixed0 v.ageSeconds ++ "s, ttl=" ++
    fixed0 v.ttlSeconds ++ "s)"

def subject (v : HeartbeatViolation) : String := "[cronwatch] Heartbeat expired: " ++ v.jobName

end HeartbeatViolation

namespace HeartbeatMonitor

/-- A call of the alerter, with the time of its tick. -/
structure Alert where
  violation : HeartbeatViolation
  sentAt : DateTime
deriving DecidableEq

/-- `self._alerter.send(subject=..., body=...)`, which may depend on the calls before. -/
abbrev Send := List Alert → String → String → Except PyException Unit

end HeartbeatMonitor

structure HeartbeatMonitor where
  defaultTtl : ℚ := 3600
  perJobTtl : Dict String ℚ := .empty
  alerted : Dict String DateTime := .empty
  calls : List HeartbeatMonitor.Alert := []

namespace HeartbeatMonitor

def new (defaultTtl : ℚ) (perJobTtl : Dict String ℚ) : HeartbeatMonitor := { defaultTtl, perJobTtl }

def ttlFor (m : HeartbeatMonitor) (jobName : String) : ℚ :=
  (m.perJobTtl.get? jobName).getD m.defaultTtl

/-- More than the time to live is over since `lastAlert`. -/
def passed (m : HeartbeatMonitor) (jobName : String) (lastAlert now : DateTime) : Prop :=
  totalSeconds (now - lastAlert) > m.ttlFor jobName

instance (m : HeartbeatMonitor) (jobName : String) (lastAlert now : DateTime) :
    Decidable (m.passed jobName lastAlert now) :=
  inferInstanceAs (Decidable (_ > _))

section Tick

variable (send : Send) (now : DateTime)

def alert (name : String) (entry : HeartbeatEntry) (m : HeartbeatMonitor) :
    Except PyException (Option HeartbeatViolation) × HeartbeatMonitor :=
  let v : HeartbeatViolation :=
    { jobName := name
      lastSuccess := entry.lastSuccess
      ageSeconds := entry.ageSeconds now
      ttlSeconds := m.ttlFor name }
  match send m.calls v.subject v.str with
  | .error e => (.error e, { m with calls := m.calls ++ [⟨v, now⟩] })
  | .ok () =>
      (.ok (some v),
        { m with calls := m.calls ++ [⟨v, now⟩], alerted := m.alerted.set name now })

/-- The body of the loop for one entry of the store. -/
def process (name : String) (entry : HeartbeatEntry) (m : HeartbeatMonitor) :
    Except PyException (Option HeartbeatViolation) × HeartbeatMonitor :=
  if entry.isAlive (m.ttlFor name) now then (.ok none, m)
  else
    match m.alerted.get? name with
    | none => alert send now name entry m
    | some lastAlert =>
        if m.passed name lastAlert now then alert send now name entry m else (.ok none, m)

def tickLoop : List (String × HeartbeatEntry) → HeartbeatMonitor →
    Except PyException (List HeartbeatViolation) × HeartbeatMonitor
  | [], m => (.ok [], m)
  | (name, entry) :: rest, m =>
      match process send now name entry m with
      | (.error e, m) => (.error e, m)
      | (.ok violation, m) =>
          match tickLoop rest m with
          | (.error e, m) => (.error e, m)
          | (.ok violations, m) => (.ok (violation.toList ++ violations), m)

def tick (all : Dict String HeartbeatEntry) (m : HeartbeatMonitor) :
    Except PyException (List HeartbeatViolation) × HeartbeatMonitor :=
  tickLoop send now all.entries m

end Tick

def reset (jobName : String) (m : HeartbeatMonitor) : HeartbeatMonitor :=
  { m with alerted := m.alerted.erase jobName }

/-! ## The monitor beside its store -/

inductive Event where
  | heartbeat (jobName : String) (now : DateTime)
  | tick (now : DateTime)
  | reset (jobName : String)
deriving DecidableEq

def Event.time? : Event → Option DateTime
  | .heartbeat _ now | .tick now => some now
  | .reset _ => none

def Event.beat? : Event → Option HeartbeatEntry
  | .heartbeat jobName now => some ⟨jobName, now⟩
  | .tick _ | .reset _ => none

/-- The heartbeats recorded, in order. -/
def beats (events : List Event) : List HeartbeatEntry := events.filterMap Event.beat?

/-- The last heartbeat of the job. -/
def lastBeat (jobName : String) (recorded : List HeartbeatEntry) : Option HeartbeatEntry :=
  (recorded.filter fun entry => entry.jobName = jobName).getLast?

structure World where
  recorded : List HeartbeatEntry := []
  monitor : HeartbeatMonitor

section Run

variable (send : Send) (all : List HeartbeatEntry → Dict String HeartbeatEntry)

def step (w : World) : Event → World
  | .heartbeat jobName now => { w with recorded := w.recorded ++ [⟨jobName, now⟩] }
  | .tick now => { w with monitor := (w.monitor.tick send now (all w.recorded)).2 }
  | .reset jobName => { w with monitor := w.monitor.reset jobName }

def run (events : List Event) (w : World) : World := events.foldl (step send all) w

end Run

/-- The calls come in order of time. -/
def Nondecreasing (events : List Event) : Prop := (events.filterMap Event.time?).Pairwise (· ≤ ·)

/-- Whenever it is asked in the run, the store lists the last heartbeat of each job. -/
def ListsLatest (all : List HeartbeatEntry → Dict String HeartbeatEntry) (events : List Event) :
    Prop :=
  ∀ before, before <+: events → ∀ jobName,
    (all (beats before)).get? jobName = lastBeat jobName (beats before)

/-- The alerter returns. -/
def Returns (send : Send) : Prop := ∀ calls subject body, send calls subject body = .ok ()

/-! ## One entry, and one tick -/

/-- The alerts as acts of the jobs they are about. -/
def log (m : HeartbeatMonitor) : List (String × DateTime) :=
  m.calls.map fun call => (call.violation.jobName, call.sentAt)

/-- No time to live is negative. -/
def Nonnegative (m : HeartbeatMonitor) : Prop := ∀ jobName, 0 ≤ m.ttlFor jobName

section Lemmas

variable {send : Send} {now : DateTime}

@[simp] theorem log_alert (m : HeartbeatMonitor) (v : HeartbeatViolation) (sentAt : DateTime)
    (alerted : Dict String DateTime) :
    log { m with calls := m.calls ++ [⟨v, sentAt⟩], alerted } = m.log ++ [(v.jobName, sentAt)] := by
  simp [log]

/-- Every entry either makes an alert, or is alive or held off and changes nothing. -/
theorem process_cases (returns : Returns send) (now : DateTime) (name : String)
    (entry : HeartbeatEntry) (m : HeartbeatMonitor) :
    (∃ v : HeartbeatViolation, v.jobName = name ∧ Free m.passed m.alerted name now ∧
      process send now name entry m = (.ok (some v),
        { m with calls := m.calls ++ [⟨v, now⟩], alerted := m.alerted.set name now })) ∨
    (process send now name entry m = (.ok none, m) ∧
      (entry.isAlive (m.ttlFor name) now = true ∨ ¬ Free m.passed m.alerted name now)) := by
  have fires : ∃ v : HeartbeatViolation, v.jobName = name ∧ alert send now name entry m =
      (.ok (some v),
        { m with calls := m.calls ++ [⟨v, now⟩], alerted := m.alerted.set name now }) := by
    unfold alert
    dsimp only
    rw [returns]
    exact ⟨_, rfl, rfl⟩
  unfold process
  by_cases alive : entry.isAlive (m.ttlFor name) now = true
  · rw [if_pos alive]
    exact .inr ⟨rfl, .inl alive⟩
  · rw [if_neg alive]
    cases stamp : m.alerted.get? name with
    | none =>
        obtain ⟨v, named, sent⟩ := fires
        refine .inl ⟨v, named, fun last held => ?_, sent⟩
        rw [stamp] at held
        cases held
    | some lastAlert =>
        dsimp only
        by_cases over_ : m.passed name lastAlert now
        · obtain ⟨v, named, sent⟩ := fires
          rw [if_pos over_]
          refine .inl ⟨v, named, fun last held => ?_, sent⟩
          rw [stamp] at held
          cases held
          exact over_
        · rw [if_neg over_]
          exact .inr ⟨rfl, .inr fun free => over_ (free lastAlert stamp)⟩

/-- The loop over the entries, as a loop that an exception leaves. -/
theorem tickLoop_eq_loop (entries : List (String × HeartbeatEntry)) (m : HeartbeatMonitor) :
    tickLoop send now entries m =
      loop (Function.uncurry (process send now)) Option.toList entries m := by
  induction entries generalizing m with
  | nil => rfl
  | cons first rest ih =>
      rw [tickLoop, loop, Function.uncurry]
      rcases process send now first.1 first.2 m with ⟨e | violation, m'⟩
      · rfl
      · dsimp only
        rw [ih]
        rcases loop (Function.uncurry (process send now)) Option.toList rest m' with
          ⟨e | violations, m''⟩ <;> rfl

theorem tickLoop_cons_of_ok {name : String} {entry : HeartbeatEntry}
    {rest : List (String × HeartbeatEntry)} {m m' : HeartbeatMonitor}
    {violation : Option HeartbeatViolation}
    (processed : process send now name entry m = (.ok violation, m')) :
    tickLoop send now ((name, entry) :: rest) m =
      ((tickLoop send now rest m').1.map (violation.toList ++ ·),
        (tickLoop send now rest m').2) := by
  have turn : Function.uncurry (process send now) (name, entry) m = (.ok violation, m') := processed
  rw [tickLoop_eq_loop, loop_cons_of_ok turn, ← tickLoop_eq_loop]

/-- The configuration is left alone. -/
theorem tickLoop_ttlFor (returns : Returns send) (entries : List (String × HeartbeatEntry))
    (m : HeartbeatMonitor) : (tickLoop send now entries m).2.ttlFor = m.ttlFor := by
  rw [tickLoop_eq_loop]
  refine loop_invariant (I := fun m' : HeartbeatMonitor => m'.ttlFor = m.ttlFor)
    (fun listed _ m' same => ?_) rfl
  rcases process_cases returns now listed.1 listed.2 m' with ⟨v, -, -, sent⟩ | ⟨quiet, -⟩
  · rw [Function.uncurry, sent]
    exact same
  · rw [Function.uncurry, quiet]
    exact same

/-- An alert of this tick is not older than the time to live. -/
theorem not_passed_self {m : HeartbeatMonitor} (nonneg : m.Nonnegative) (name : String)
    (now : DateTime) : ¬ m.passed name now now := by
  simpa [passed, totalSeconds] using nonneg name

/-- **One tick.**  Every entry that is not alive has an alert that is not older than its
time to live. -/
theorem tickLoop_alerts (returns : Returns send) (entries : List (String × HeartbeatEntry))
    {m : HeartbeatMonitor} (nonneg : m.Nonnegative) (stamped : Stamped now m.log m.alerted) :
    (∃ violations, (tickLoop send now entries m).1 = .ok violations) ∧
      Stamped now (tickLoop send now entries m).2.log (tickLoop send now entries m).2.alerted ∧
      m.log ⊆ (tickLoop send now entries m).2.log ∧
      ∀ name entry, (name, entry) ∈ entries → ¬ entry.isAlive (m.ttlFor name) now = true →
        ∃ t, (name, t) ∈ (tickLoop send now entries m).2.log ∧ t ≤ now ∧ ¬ m.passed name t now := by
  induction entries generalizing m with
  | nil => exact ⟨⟨[], rfl⟩, stamped, List.Subset.refl _, fun _ _ impossible => by cases impossible⟩
  | cons first rest ih =>
      obtain ⟨name, entry⟩ := first
      rcases process_cases returns now name entry m with
        ⟨v, rfl, -, sent⟩ | ⟨quiet, reason⟩
      · let m' : HeartbeatMonitor :=
          { m with calls := m.calls ++ [⟨v, now⟩], alerted := m.alerted.set v.jobName now }
        have logged : m'.log = m.log ++ [(v.jobName, now)] := log_alert m v now _
        have stamped' : Stamped now m'.log m'.alerted := by
          rw [logged]
          exact stamped.act v.jobName
        obtain ⟨⟨violations, returned⟩, kept, grows, alerts⟩ := ih (m := m') nonneg stamped'
        rw [tickLoop_cons_of_ok sent]
        refine ⟨⟨v :: violations, by rw [returned]; rfl⟩, kept, ?_, ?_⟩
        · refine List.Subset.trans ?_ grows
          rw [logged]
          exact List.subset_append_left _ _
        · intro name' entry' member stale
          rcases List.mem_cons.mp member with same | later
          · cases same
            refine ⟨now, grows ?_, le_rfl, not_passed_self nonneg v.jobName now⟩
            rw [logged]
            simp
          · exact alerts name' entry' later stale
      · obtain ⟨⟨violations, returned⟩, kept, grows, alerts⟩ := ih nonneg stamped
        rw [tickLoop_cons_of_ok quiet]
        refine ⟨⟨violations, by rw [returned]; rfl⟩, kept, grows, ?_⟩
        intro name' entry' member stale
        rcases List.mem_cons.mp member with same | later
        · cases same
          rcases reason with alive | held
          · exact absurd alive stale
          · obtain ⟨t, acted, past, recent⟩ := stamped.exists_act held
            exact ⟨t, grows acted, past, recent⟩
        · exact alerts name' entry' later stale

theorem passed_of_le {m : HeartbeatMonitor} {name : String} {t last now : DateTime} (le : t ≤ last)
    (over_ : m.passed name last now) : m.passed name t now := by
  have longer : totalSeconds (now - last) ≤ totalSeconds (now - t) :=
    (totalSeconds_le_iff _ _).mpr (by linarith)
  exact lt_of_lt_of_le over_ longer

theorem tickLoop_spaced (returns : Returns send) (entries : List (String × HeartbeatEntry))
    {m : HeartbeatMonitor} {name : String}
    (spaced : Spaced (m.passed name) name now m.log m.alerted) :
    Spaced (m.passed name) name now (tickLoop send now entries m).2.log
      (tickLoop send now entries m).2.alerted := by
  induction entries generalizing m with
  | nil => exact spaced
  | cons first rest ih =>
      obtain ⟨name', entry⟩ := first
      rcases process_cases returns now name' entry m with
        ⟨v, rfl, free, sent⟩ | ⟨quiet, -⟩
      · rw [tickLoop_cons_of_ok sent]
        refine ih (m := { m with
          calls := m.calls ++ [⟨v, now⟩], alerted := m.alerted.set v.jobName now }) ?_
        rw [log_alert]
        by_cases same : v.jobName = name
        · subst same
          exact spaced.act (fun t last le over_ => passed_of_le le over_) free
        · exact spaced.act_of_ne same now
      · rw [tickLoop_cons_of_ok quiet]
        exact ih spaced

end Lemmas

/-! ## Any run -/

section Runs

variable {send : Send} {all : List HeartbeatEntry → Dict String HeartbeatEntry}

theorem run_append_single (events : List Event) (e : Event) (w : World) :
    run send all (events ++ [e]) w = step send all (run send all events w) e := by
  simp [run]

theorem run_recorded (events : List Event) (m : HeartbeatMonitor) :
    (run send all events { monitor := m }).recorded = beats events := by
  induction events using List.reverseRecOn with
  | nil => rfl
  | append_singleton before e ih =>
      rw [run_append_single, beats, List.filterMap_append, ← beats, ← ih]
      cases e <;> simp [step, Event.beat?]

theorem run_ttlFor (returns : Returns send) (events : List Event) (m : HeartbeatMonitor) :
    (run send all events { monitor := m }).monitor.ttlFor = m.ttlFor := by
  induction events using List.reverseRecOn with
  | nil => rfl
  | append_singleton before e ih =>
      rw [run_append_single, ← ih]
      cases e with
      | heartbeat jobName now => rfl
      | tick now => exact tickLoop_ttlFor returns _ _
      | reset jobName => rfl

variable {defaultTtl : ℚ} {perJobTtl : Dict String ℚ}

theorem run_nonnegative (returns : Returns send)
    (nonneg : (new defaultTtl perJobTtl).Nonnegative) (events : List Event) :
    (run send all events { monitor := new defaultTtl perJobTtl }).monitor.Nonnegative := by
  intro jobName
  rw [run_ttlFor returns]
  exact nonneg jobName

/-- The stamps of a run are alerts of the past. -/
theorem run_stamped (returns : Returns send) (nonneg : (new defaultTtl perJobTtl).Nonnegative)
    {events : List Event} (ordered : Nondecreasing events) {now : DateTime}
    (past : ∀ t ∈ events.filterMap Event.time?, t ≤ now) :
    Stamped now (run send all events { monitor := new defaultTtl perJobTtl }).monitor.log
      (run send all events { monitor := new defaultTtl perJobTtl }).monitor.alerted := by
  induction events using List.reverseRecOn generalizing now with
  | nil => exact Stamped.start now
  | append_singleton before e ih =>
      obtain ⟨orderedBefore, earlier⟩ := ordered_front ordered
      rw [List.filterMap_append] at past
      have pastBefore := fun t member => past t (List.mem_append_left _ member)
      rw [run_append_single]
      cases e with
      | heartbeat jobName t => exact ih orderedBefore pastBefore
      | tick t =>
          have le : t ≤ now := past t (by simp [Event.time?])
          have stamped := ih orderedBefore (earlier t rfl)
          exact ((tickLoop_alerts returns _ (run_nonnegative returns nonneg before)
            stamped).2.1).wait le
      | reset jobName => exact (ih orderedBefore pastBefore).forget jobName

/-- Without a reset of the job its alerts are apart. -/
theorem run_spaced (returns : Returns send) {jobName : String} {events : List Event}
    (noReset : Event.reset jobName ∉ events) (ordered : Nondecreasing events) {now : DateTime}
    (past : ∀ t ∈ events.filterMap Event.time?, t ≤ now) :
    Spaced ((new defaultTtl perJobTtl).passed jobName) jobName now
      (run send all events { monitor := new defaultTtl perJobTtl }).monitor.log
      (run send all events { monitor := new defaultTtl perJobTtl }).monitor.alerted := by
  induction events using List.reverseRecOn generalizing now with
  | nil => exact Spaced.start _ _ now
  | append_singleton before e ih =>
      obtain ⟨orderedBefore, earlier⟩ := ordered_front ordered
      rw [List.filterMap_append] at past
      have pastBefore := fun t member => past t (List.mem_append_left _ member)
      have noResetBefore := fun member => noReset (List.mem_append_left _ member)
      rw [run_append_single]
      cases e with
      | heartbeat name t => exact ih noResetBefore orderedBefore pastBefore
      | tick t =>
          have le : t ≤ now := past t (by simp [Event.time?])
          have spaced := ih noResetBefore orderedBefore (earlier t rfl)
          have same : (new defaultTtl perJobTtl).passed jobName =
              (run send all before { monitor := new defaultTtl perJobTtl }).monitor.passed
                jobName := by
            funext last t
            rw [passed, passed, run_ttlFor returns]
          rw [same] at spaced ⊢
          exact (tickLoop_spaced returns _ spaced).wait le
      | reset name =>
          have other : name ≠ jobName := by
            rintro rfl
            exact noReset (List.mem_append_right _ (List.mem_singleton_self _))
          exact (ih noResetBefore orderedBefore pastBefore).forget_of_ne other

/-- **Every outage is alerted.**  A tick that finds a job silent for longer than its time
to live has an alert for it since its last heartbeat, at the latest its own; and without
a reset of the job its alerts are more than the time to live apart. -/
theorem outages_alerted (returns : Returns send)
    (nonneg : (new defaultTtl perJobTtl).Nonnegative) {events : List Event}
    (ordered : Nondecreasing events) (latest : ListsLatest all events) :
    (∀ before now after, events = before ++ .tick now :: after → ∀ jobName entry,
      lastBeat jobName (beats before) = some entry →
      (new defaultTtl perJobTtl).ttlFor jobName < totalSeconds (now - entry.lastSuccess) →
      ∃ alert ∈ (run send all (before ++ [.tick now])
          { monitor := new defaultTtl perJobTtl }).monitor.calls,
        alert.violation.jobName = jobName ∧ entry.lastSuccess < alert.sentAt ∧
          alert.sentAt ≤ now) ∧
    ∀ jobName, Event.reset jobName ∉ events →
      (times jobName (run send all events
        { monitor := new defaultTtl perJobTtl }).monitor.log).Pairwise fun first second =>
          (new defaultTtl perJobTtl).ttlFor jobName < totalSeconds (second - first) := by
  constructor
  · rintro before now after rfl jobName entry beat silent
    obtain ⟨orderedBefore, earlier⟩ := ordered_front ordered
    have listed : (jobName, entry) ∈
        (all (run send all before { monitor := new defaultTtl perJobTtl }).recorded).entries := by
      rw [run_recorded, Dict.mem_entries_iff, latest before (List.prefix_append _ _)]
      exact beat
    have stale : ¬ entry.isAlive ((run send all before
        { monitor := new defaultTtl perJobTtl }).monitor.ttlFor jobName) now = true := by
      rw [run_ttlFor returns]
      rw [HeartbeatEntry.isAlive, decide_eq_true_iff, not_le]
      exact silent
    obtain ⟨-, -, -, alerts⟩ := tickLoop_alerts returns _ (run_nonnegative returns nonneg before)
      (run_stamped returns nonneg orderedBefore (earlier now rfl))
    obtain ⟨t, acted, le, recent⟩ := alerts jobName entry listed stale
    obtain ⟨alert, called, same⟩ := List.mem_map.mp acted
    obtain ⟨named, sent⟩ := Prod.mk.inj same
    rw [run_append_single]
    refine ⟨alert, called, named, ?_, by rw [sent]; exact le⟩
    rw [passed, run_ttlFor returns, gt_iff_lt, not_lt] at recent
    have shorter : totalSeconds (now - t) < totalSeconds (now - entry.lastSuccess) :=
      recent.trans_lt silent
    rw [sent]
    by_contra after
    exact absurd ((totalSeconds_le_iff (now - entry.lastSuccess) (now - t)).mpr (by linarith))
      (not_le.mpr shorter)
  · intro jobName noReset
    obtain ⟨now, past⟩ := exists_latest ordered
    exact (run_spaced returns noReset ordered past).apart

end Runs

/-- A store that lists the last heartbeat of every job, the latest recorded job last. -/
def listing (recorded : List HeartbeatEntry) : Dict String HeartbeatEntry :=
  recorded.foldl (fun d entry => d.set entry.jobName entry) .empty

theorem get?_listing (recorded : List HeartbeatEntry) (jobName : String) :
    (listing recorded).get? jobName = lastBeat jobName recorded := by
  induction recorded using List.reverseRecOn with
  | nil => rfl
  | append_singleton before entry ih =>
      rw [listing, List.foldl_append, ← listing]
      show ((listing before).set entry.jobName entry).get? jobName = _
      rw [Dict.get?_set, ih, lastBeat, lastBeat, List.filter_append]
      by_cases same : jobName = entry.jobName
      · simp [same]
      · simp [same, Ne.symm same]

/-- Two outages of one job, the second half an hour after the alert for the first. -/
def twoOutages : List Event :=
  [.heartbeat "backup" 0, .tick (seconds 3601), .heartbeat "backup" (seconds 3700),
    .tick (seconds 7201), .tick (seconds 7301)]

theorem second_outage_alerted :
    ∃ alert ∈ (run (fun _ _ _ => .ok ()) listing twoOutages
        { monitor := new 3600 .empty }).monitor.calls,
      alert.violation.jobName = "backup" ∧ seconds 3700 < alert.sentAt := by
  have nonneg : (new 3600 .empty).Nonnegative := by
    intro jobName
    show (0 : ℚ) ≤ 3600
    decide +kernel
  have ordered : Nondecreasing twoOutages := by
    unfold Nondecreasing
    decide
  have returns : Returns fun _ _ _ => .ok () := fun _ _ _ => rfl
  have alerted := (outages_alerted returns nonneg ordered
    fun before _ jobName => get?_listing (beats before) jobName).1
    [.heartbeat "backup" 0, .tick (seconds 3601), .heartbeat "backup" (seconds 3700),
      .tick (seconds 7201)] (seconds 7301) [] rfl "backup" ⟨"backup", seconds 3700⟩ (by decide)
    (by decide +kernel)
  obtain ⟨alert, called, named, after, -⟩ := alerted
  exact ⟨alert, called, named, after⟩

end HeartbeatMonitor

end Cronwatch.Alerts
