/-
# Alerts.DeadlineAlerter -- one alert per missed deadline and day

`tick` asks the `DeadlineChecker` for violations and alerts each that it has not alerted
that day.  The key of a violation is added to the set before the alert is sent.  So an
alert whose `send` raises counts as sent, and is never tried again that day.

`retried_iff`, for the ticks of one day: an alert that failed is tried again at the next
tick that still finds the job late exactly when no such tick comes; and an alert that
was sent is not sent again.
-/
import Cronwatch.Alerts.Message
import Cronwatch.Jobs.Deadline
import Cronwatch.Theory.Loop
import Cronwatch.Theory.Splits

namespace Cronwatch.Alerts

set_option autoImplicit false

open Cronwatch.Theory Cronwatch.Theory.Loop Cronwatch.Runtime Cronwatch.Jobs

namespace DeadlineAlerter

/-- A call of `self.alerter.send`, and whether it returned. -/
structure Attempt where
  violation : DeadlineViolation
  message : Message
  sent : Bool
deriving DecidableEq

/-- The code handed in; what the alerter answers may depend on the calls made before. -/
structure Env where
  repr : String → String
  send : List Attempt → Message → Except PyException Unit

end DeadlineAlerter

structure DeadlineAlerter where
  /-- Job names with the date of an alert. -/
  alerted : List (String × String) := []
  attempts : List DeadlineAlerter.Attempt := []

namespace DeadlineAlerter

def message (violation : DeadlineViolation) : Message :=
  let dl := padded 2 violation.deadline.hour ++ ":" ++ padded 2 violation.deadline.minute ++ " UTC"
  let checkedAt := isoDate violation.checkedAt ++ " " ++ clockTime violation.checkedAt ++ " UTC"
  { subject := s!"[cronwatch] Deadline missed: {violation.jobName}",
    body := s!"Job '{violation.jobName}' did not run before its deadline of {dl}.\n" ++
      s!"Checked at: {checkedAt}" }

def attempt (violation : DeadlineViolation) (sent : Bool) (a : DeadlineAlerter) : DeadlineAlerter :=
  { a with attempts := a.attempts ++ [⟨violation, message violation, sent⟩] }

/-- `self._send_alert(v)`. -/
def sendAlert (env : Env) (violation : DeadlineViolation) (a : DeadlineAlerter) :
    Except PyException Unit × DeadlineAlerter :=
  match env.send a.attempts (message violation) with
  | .error e => (.error e, a.attempt violation false)
  | .ok () => (.ok (), a.attempt violation true)

/-- The body of the loop for one violation; `none` when it has been alerted today. -/
def process (env : Env) (now : DateTime) (violation : DeadlineViolation) (a : DeadlineAlerter) :
    Except PyException (Option DeadlineViolation) × DeadlineAlerter :=
  let key := (violation.jobName, isoDate now)
  if key ∈ a.alerted then (.ok none, a)
  else
    match sendAlert env violation { a with alerted := a.alerted ++ [key] } with
    | (.error e, a) => (.error e, a)
    | (.ok (), a) => (.ok (some violation), a)

def tick (env : Env) (now : DateTime) (checker : DeadlineChecker) (a : DeadlineAlerter) :
    Except PyException (List DeadlineViolation) × DeadlineAlerter :=
  match checker.check env.repr now with
  | .error e => (.error e, a)
  | .ok violations => loop (process env now) Option.toList violations a

/-- A call of `tick`, with the checker as it is then. -/
structure Tick where
  now : DateTime
  checker : DeadlineChecker

/-- Any number of ticks; what one of them raises does not stop the next. -/
def ticks (env : Env) (calls : List Tick) (a : DeadlineAlerter) : DeadlineAlerter :=
  calls.foldl (fun a call => (a.tick env call.now call.checker).2) a

/-! ## What a tick does -/

/-- The check of the tick finds the job late. -/
def Tick.Late (env : Env) (jobName : String) (call : Tick) : Prop :=
  ∃ violations, call.checker.check env.repr call.now = .ok violations ∧
    ∃ violation ∈ violations, violation.jobName = jobName

/-- The calls of `send` made in a tick that comes after these, on an alerter that has
alerted `old` before them. -/
def attemptsOf (env : Env) (old : List (String × String)) (before : List Tick) (call : Tick) :
    List Attempt :=
  (ticks env (before ++ [call]) { alerted := old }).attempts.drop
    (ticks env before { alerted := old }).attempts.length

/-- **No alert is lost**: one that failed is tried again at the next tick that still finds
the job late; one that was sent is not tried again. -/
structure NoneLost (env : Env) (old : List (String × String)) (calls : List Tick) : Prop where
  retried : ∀ before call between later after jobName,
    calls = before ++ call :: (between ++ later :: after) →
    (∃ attempt ∈ attemptsOf env old before call, attempt.violation.jobName = jobName ∧
      attempt.sent = false) →
    (∀ call' ∈ between, ¬ call'.Late env jobName) → later.Late env jobName →
    ∃ attempt ∈ attemptsOf env old (before ++ call :: between) later,
      attempt.violation.jobName = jobName
  once : ∀ before attempt after,
    (ticks env calls { alerted := old }).attempts = before ++ attempt :: after →
    attempt.sent = true → ∀ again ∈ after, again.violation.jobName ≠ attempt.violation.jobName

/-- No tick that comes after one in which a job's alert failed finds the job late. -/
def NoneLateAgain (env : Env) (old : List (String × String)) (calls : List Tick) : Prop :=
  ∀ before call after jobName, calls = before ++ call :: after →
    (∃ attempt ∈ attemptsOf env old before call, attempt.violation.jobName = jobName ∧
      attempt.sent = false) →
    ∀ later ∈ after, ¬ later.Late env jobName

/-- The jobs that a send was tried for are the ones in the set, each once. -/
structure Marked (date : String) (a : DeadlineAlerter) : Prop where
  keys : ∀ jobName, (jobName, date) ∈ a.alerted ↔
    jobName ∈ a.attempts.map fun attempt => attempt.violation.jobName
  nodup : (a.attempts.map fun attempt => attempt.violation.jobName).Nodup

/-- **One violation** adds a call of `send` exactly when its job has none. -/
theorem process_spec (env : Env) {now : DateTime} (violation : DeadlineViolation)
    {a : DeadlineAlerter} (marked : Marked (isoDate now) a) :
    Marked (isoDate now) (a.process env now violation).2 ∧
      a.attempts <+: (a.process env now violation).2.attempts := by
  unfold process
  dsimp only
  split
  · exact ⟨marked, List.prefix_rfl⟩
  · rename_i new
    have absent : violation.jobName ∉ a.attempts.map fun attempt => attempt.violation.jobName :=
      fun member => new ((marked.keys violation.jobName).mpr member)
    have next : ∀ sent, Marked (isoDate now)
        (attempt violation sent
          { a with alerted := a.alerted ++ [(violation.jobName, isoDate now)] }) := by
      intro sent
      constructor
      · intro jobName
        simp [attempt, marked.keys]
      · rw [attempt, List.map_append]
        refine List.nodup_append.mpr ⟨marked.nodup, List.nodup_singleton _, ?_⟩
        rintro jobName member _ last rfl
        rw [List.mem_singleton.mp last] at member
        exact absent member
    unfold sendAlert
    split
    · rename_i raised
      split at raised
      · cases raised
        exact ⟨next false, List.prefix_append _ _⟩
      · cases raised
    · rename_i returned
      split at returned
      · cases returned
      · cases returned
        exact ⟨next true, List.prefix_append _ _⟩

/-- **One tick** of the day. -/
theorem tick_spec (env : Env) (call : Tick) {date : String} (today : isoDate call.now = date)
    {a : DeadlineAlerter} (marked : Marked date a) :
    Marked date (a.tick env call.now call.checker).2 ∧
      a.attempts <+: (a.tick env call.now call.checker).2.attempts := by
  subst today
  unfold tick
  split
  · exact ⟨marked, List.prefix_rfl⟩
  · refine loop_invariant (I := fun a' => Marked (isoDate call.now) a' ∧
      a.attempts <+: a'.attempts) (fun violation _ a' kept => ?_) ⟨marked, List.prefix_rfl⟩
    obtain ⟨next, added⟩ := process_spec env violation kept.1
    exact ⟨next, kept.2.trans added⟩

theorem ticks_append_single (env : Env) (calls : List Tick) (call : Tick) (a : DeadlineAlerter) :
    ticks env (calls ++ [call]) a = ((ticks env calls a).tick env call.now call.checker).2 := by
  rw [ticks, List.foldl_append]
  rfl

section Day

variable {env : Env} {date : String} {old : List (String × String)} {calls : List Tick}

variable (env) in
/-- **Any number of ticks** of one day. -/
theorem marked_ticks (new : ∀ jobName, (jobName, date) ∉ old)
    (today : ∀ call ∈ calls, isoDate call.now = date) :
    Marked date (ticks env calls { alerted := old }) := by
  induction calls using List.reverseRecOn with
  | nil => exact ⟨by simp [ticks, new], by simp [ticks]⟩
  | append_singleton before call ih =>
      rw [ticks_append_single]
      refine (tick_spec env call (today call (by simp)) ?_).1
      exact ih fun call' member => today call' (List.mem_append_left [call] member)

variable (env calls) in
theorem attempts_mono (today : ∀ call ∈ calls, isoDate call.now = date) {a : DeadlineAlerter}
    (marked : Marked date a) : a.attempts <+: (ticks env calls a).attempts := by
  induction calls generalizing a with
  | nil => exact List.prefix_rfl
  | cons call rest ih =>
      obtain ⟨next, added⟩ := tick_spec env call (today call List.mem_cons_self) marked
      exact added.trans (ih (fun call' member => today call' (List.mem_cons_of_mem call member)) next)

/-- The calls of `send` of a tick, after those made before it. -/
theorem attempts_append_single (new : ∀ jobName, (jobName, date) ∉ old) (call : Tick)
    (today : ∀ call' ∈ calls ++ [call], isoDate call'.now = date) :
    (ticks env (calls ++ [call]) { alerted := old }).attempts =
      (ticks env calls { alerted := old }).attempts ++ attemptsOf env old calls call := by
  have marked := marked_ticks env new fun call' member =>
    today call' (List.mem_append_left [call] member)
  have added := (tick_spec env call (today call (by simp)) marked).2
  rw [← ticks_append_single] at added
  obtain ⟨rest, split⟩ := added
  rw [attemptsOf, ← split, List.drop_left]

/-- In one day no job has two attempts: not again in a later tick, when there has been
one. -/
theorem no_attempt_again (new : ∀ jobName, (jobName, date) ∉ old) {before between : List Tick}
    {call later : Tick} (today : ∀ call' ∈ before ++ call :: (between ++ [later]),
      isoDate call'.now = date) {first again : Attempt}
    (tried : first ∈ attemptsOf env old before call)
    (retried : again ∈ attemptsOf env old (before ++ call :: between) later) :
    again.violation.jobName ≠ first.violation.jobName := by
  have regrouped : before ++ call :: (between ++ [later]) =
      (before ++ call :: between) ++ [later] := by simp
  rw [regrouped] at today
  have front : ∀ call' ∈ before ++ [call], isoDate call'.now = date := fun call' member =>
    today call' (List.mem_append_left _ (by
      rcases List.mem_append.mp member with earlier | last
      · exact List.mem_append_left _ earlier
      · rw [List.mem_singleton.mp last]
        simp))
  have member : first ∈ (ticks env (before ++ call :: between) { alerted := old }).attempts := by
    have grows := attempts_mono env between
      (fun call' inside => today call' (by simp [inside])) (marked_ticks env new front)
    have joined : ticks env between (ticks env (before ++ [call]) { alerted := old }) =
        ticks env (before ++ call :: between) { alerted := old } := by
      rw [ticks, ticks, ticks, ← List.foldl_append, List.append_assoc, List.singleton_append]
    rw [joined, attempts_append_single new call front] at grows
    exact grows.subset (List.mem_append_right _ tried)
  have nodup := (marked_ticks env new today).nodup
  rw [attempts_append_single new later today, List.map_append] at nodup
  intro same
  refine (List.nodup_append.mp nodup).2.2 first.violation.jobName
    (List.mem_map_of_mem member) again.violation.jobName (List.mem_map_of_mem retried) same.symm

/-- **When no alert is lost**, in the ticks of one day: exactly when no job whose alert
failed is found late again by a later tick. -/
theorem retried_iff (new : ∀ jobName, (jobName, date) ∉ old)
    (today : ∀ call ∈ calls, isoDate call.now = date) :
    NoneLost env old calls ↔ NoneLateAgain env old calls := by
  constructor
  · intro law before call after jobName split failed later member late
    obtain ⟨between, next, rest, rfl, lateAgain, none_⟩ := exists_first ⟨later, member, late⟩
    obtain ⟨again, retried, same⟩ :=
      law.retried before call between next rest jobName split failed none_ lateAgain
    obtain ⟨first, tried, firstJob, -⟩ := failed
    refine no_attempt_again new (fun call' inside => today call' ?_) tried retried
      (same.trans firstJob.symm)
    rw [split]
    simp only [List.mem_append, List.mem_cons, List.not_mem_nil, or_false] at inside ⊢
    tauto
  · intro over_
    constructor
    · intro before call between later after jobName split failed _ late
      exact absurd late (over_ before call _ jobName split failed later (by simp))
    · intro before attempt after split _ again member same
      have nodup := (marked_ticks env new today).nodup
      rw [split, List.map_append, List.map_cons] at nodup
      have later := (List.nodup_cons.mp (List.nodup_append.mp nodup).2.1).1
      exact later (same ▸ List.mem_map_of_mem member)

end Day

end DeadlineAlerter

end Cronwatch.Alerts
