/-
# Alerts.EscalatedPipeline -- the pipeline with a notifier and an escalating alerter

`RunPipeline` without a breaker, whose notifier is a `Notifier` and whose alerter is an
`EscalatingAlerter`.  Both are what they have become through the calls that the pipeline
made of them; the other parties, the clocks and the alerter inside are handed in.

The tracker of the alerter counts the failures that the notifier lets through, since the
last success that it let through.  An alert that names a level names the one of that
count (`trueLevels_iff`), so it is the true one in a run in which nothing that moves the
count is held back (`levels_true`): every failure finds the minimum interval over, and
every success after a failure is notified.  A suppressed failure makes the level of the
next alert too low (`level_lags`).
-/
import Cronwatch.Alerts.Escalation
import Cronwatch.Alerts.Notifier
import Cronwatch.Jobs.Pipeline
import Cronwatch.Theory.Splits

namespace Cronwatch.Alerts.EscalatedPipeline

set_option autoImplicit false

open Cronwatch.Theory Cronwatch.Theory.Loop Cronwatch.Runtime Cronwatch.Jobs Cronwatch.Jobs.RunPipeline
open EscalatingAlerter (annotate decorated streak streakAfter_self streakAfter_of_ne)

/-- The parts of the chain, and the code handed in; its answers may depend on what
happened before, those of the alerter inside on the results it was called with. -/
structure Parties where
  minIntervalSeconds : ℚ
  notifyOnRecovery : Bool
  policy : EscalationPolicy
  upper : String → String
  isDue : List Call → JobConfig → Except PyException Bool
  run : List Call → JobConfig → Except PyException RunnerResult
  record : List Call → Option ExecutionResult → Except PyException Unit
  utcnow : List Call → DateTime
  /-- The reading of `time.monotonic` after these calls. -/
  monotonic : List Call → ℚ
  deliver : List ExecutionResult → ExecutionResult → Except PyException Unit

/-- The result of a run that was made. -/
def ran? : Call → Option ExecutionResult
  | .record _ result _ => result
  | _ => none

/-- The result that the alerter was called with. -/
def told? : Call → Option ExecutionResult
  | .send result => result
  | _ => none

def executed (calls : List Call) : List ExecutionResult := calls.filterMap ran?

def heard (calls : List Call) : List ExecutionResult := calls.filterMap told?

namespace Parties

variable (parties : Parties)

/-- A call of the notifier, with its reading of the clock. -/
def judged (before : List Call) : Call → Option Notifier.Event
  | .shouldNotify (some result) => some (.shouldNotify result (parties.monotonic before))
  | _ => none

/-- The calls of the notifier. -/
def events (calls : List Call) : List Notifier.Event := collect parties.judged [] calls

def notifier (calls : List Call) :
    Notifier parties.minIntervalSeconds parties.notifyOnRecovery :=
  Notifier.run parties.minIntervalSeconds parties.notifyOnRecovery (parties.events calls)

/-- The alerter inside; the state is the results it was called with. -/
def recorder : Send (List ExecutionResult) :=
  fun result received => (parties.deliver received result, received ++ [result])

def alerter (calls : List Call) : EscalatingAlerter (List ExecutionResult) :=
  (EscalatingAlerter.new parties.policy []).sends parties.upper parties.recorder (heard calls)

def env : Env where
  isDue := parties.isDue
  run := parties.run
  record := parties.record
  shouldNotify calls
    | none => .error (.attributeError "'NoneType' object has no attribute 'job_name'")
    | some result => .ok ((parties.notifier calls).shouldNotify (parties.monotonic calls) result).1
  send calls
    | none => .error (.attributeError "'NoneType' object has no attribute 'success'")
    | some result => ((parties.alerter calls).send parties.upper parties.recorder result).1
  utcnow := parties.utcnow

/-- The failures of the job in a row, at the level that the policy gives them. -/
def levelOf (jobName : String) (results : List ExecutionResult) : String :=
  parties.policy.levelFor (streak jobName results : Nat)

/-- The call, when it is one with a failed result, hands the alerter inside the result with
the level of the failed runs of the job since its last successful run. -/
def Truthful (before : List Call) : Call → Prop
  | .send (some result) => result.success = false →
      (parties.alerter (before ++ [.send (some result)])).inner =
        (parties.alerter before).inner ++
          [annotate parties.upper result (parties.levelOf result.jobName (executed before))]
  | _ => True

/-- **Alerts carry the true level.** -/
def TrueLevels (calls : List Call) : Prop :=
  ∀ before call after, calls = before ++ call :: after → parties.Truthful before call

/-! ## Runs in which the tracker hears what moves its count -/

/-- The last result of the job. -/
def lastOf (jobName : String) (results : List ExecutionResult) : Option ExecutionResult :=
  (results.filter fun result => result.jobName = jobName).getLast?

/-- The recording of a result that will get to the tracker, if it moves the count.  A failure
does when the history takes it and the minimum interval of the job is over; a success after
a failure when the history takes it, recoveries are notified and the failure had an exit
code other than 0. -/
def Passes (before : List Call) : Call → Prop
  | .record job (some result) now =>
      if result.success then
        ∀ last, lastOf result.jobName (executed before) = some last → last.success = false →
          parties.record before (some result) = .ok () ∧ parties.notifyOnRecovery = true ∧
            last.exitCode ≠ 0
      else
        parties.record before (some result) = .ok () ∧
          parties.minIntervalSeconds ≤ parties.monotonic (before ++ [.record job (some result) now]) -
            ((parties.notifier before).getState result.jobName).lastNotifiedAt
  | _ => True

def Heard (calls : List Call) : Prop :=
  ∀ before call after, calls = before ++ call :: after → parties.Passes before call

/-- What holds while everything that moves a count is heard. -/
structure Good (calls : List Call) : Prop where
  counts : ∀ jobName, streak jobName (heard calls) = streak jobName (executed calls)
  failures : ∀ jobName last, lastOf jobName (executed calls) = some last →
    last.success = false → Notifier.previous jobName (parties.events calls) = some last
  levels : parties.TrueLevels calls

/-! ## One call more -/

variable {parties}

theorem executed_append_single (calls : List Call) (call : Call) :
    executed (calls ++ [call]) = executed calls ++ (ran? call).toList := by
  rw [executed, List.filterMap_append]
  cases answer : ran? call <;> simp [answer, executed]

theorem heard_append_single (calls : List Call) (call : Call) :
    heard (calls ++ [call]) = heard calls ++ (told? call).toList := by
  rw [heard, List.filterMap_append]
  cases answer : told? call <;> simp [answer, heard]

theorem events_append_single (calls : List Call) (call : Call) :
    parties.events (calls ++ [call]) = parties.events calls ++ (parties.judged calls call).toList := by
  rw [events, collect_append_single, List.nil_append]
  rfl

theorem executed_of_unrun {call : Call} (unrun : ran? call = none) (calls : List Call) :
    executed (calls ++ [call]) = executed calls := by
  rw [executed_append_single, unrun, Option.toList_none, List.append_nil]

theorem heard_of_untold {call : Call} (untold : told? call = none) (calls : List Call) :
    heard (calls ++ [call]) = heard calls := by
  rw [heard_append_single, untold, Option.toList_none, List.append_nil]

theorem events_of_unjudged {calls : List Call} {call : Call}
    (unjudged : parties.judged calls call = none) :
    parties.events (calls ++ [call]) = parties.events calls := by
  rw [events_append_single, unjudged, Option.toList_none, List.append_nil]

theorem lastOf_append_single (jobName : String) (results : List ExecutionResult)
    (result : ExecutionResult) :
    lastOf jobName (results ++ [result]) =
      if result.jobName = jobName then some result else lastOf jobName results := by
  rw [lastOf, List.filter_append, List.filter_singleton, Bool.cond_decide]
  split
  · exact List.getLast?_concat
  · rw [List.append_nil]
    rfl

/-- There are failures in a row exactly after a failure. -/
theorem streak_eq_zero {jobName : String} {results : List ExecutionResult}
    (ended : ∀ last, lastOf jobName results = some last → last.success = true) :
    streak jobName results = 0 := by
  induction results using List.reverseRecOn with
  | nil => rfl
  | append_singleton before result ih =>
      rw [EscalatingAlerter.streak_append_single]
      rw [lastOf_append_single] at ended
      by_cases own : result.jobName = jobName
      · rw [if_pos own] at ended
        rw [← own, streakAfter_self, if_pos (ended result rfl)]
      · rw [if_neg own] at ended
        rw [streakAfter_of_ne fun same => own same.symm]
        exact ih ended

theorem Heard.front {calls : List Call} {call : Call} (heard : parties.Heard (calls ++ [call])) :
    parties.Heard calls ∧ parties.Passes calls call :=
  (forall_splits_append_single calls call).mp heard

/-- What a failed result is handed over with: the level of the failures heard of. -/
theorem inner_append_single (before : List Call) {result : ExecutionResult}
    (failed : result.success = false) :
    (parties.alerter (before ++ [.send (some result)])).inner = (parties.alerter before).inner ++
      [annotate parties.upper result
        (parties.policy.levelFor (streak result.jobName (heard before) + 1 : Nat))] := by
  rw [alerter, heard_append_single]
  show ((EscalatingAlerter.new parties.policy []).sends parties.upper parties.recorder
    (heard before ++ [result])).inner = _
  rw [EscalatingAlerter.sends_append_single, EscalatingAlerter.send_failed _ _ _ failed]
  rfl

/-- **When the levels are true**: when at every alert the policy has one level for the
failures heard of and for those that there were. -/
theorem trueLevels_iff (calls : List Call) :
    parties.TrueLevels calls ↔
      ∀ before result after, calls = before ++ .send (some result) :: after →
        result.success = false →
        annotate parties.upper result
            (parties.policy.levelFor (streak result.jobName (heard before) + 1 : Nat)) =
          annotate parties.upper result (parties.levelOf result.jobName (executed before)) := by
  constructor
  · intro levels before result after split failed
    have handed := levels before _ after split failed
    rw [inner_append_single before failed] at handed
    exact List.singleton_inj.mp (List.append_cancel_left handed)
  · intro same before call after split
    unfold Truthful
    split
    · rename_i result
      intro failed
      rw [inner_append_single before failed, same before result after split failed]
    · trivial

/-! ## What the notifier answers -/

/-- What the notifier answers for a result that has been recorded. -/
def answer (parties : Parties) (calls : List Call) (result : ExecutionResult) : Bool :=
  ((parties.notifier calls).shouldNotify (parties.monotonic calls) result).1

theorem notifier_record (calls : List Call) (job : JobConfig) (result : Option ExecutionResult)
    (now : DateTime) : parties.notifier (calls ++ [.record job result now]) = parties.notifier calls := by
  rw [notifier, events_of_unjudged rfl]
  rfl

/-- A failure that passes is notified. -/
theorem answer_of_failure {calls : List Call} {job : JobConfig} {result : ExecutionResult}
    {now : DateTime} (passes : parties.Passes calls (.record job (some result) now))
    (failed : result.success = false) :
    parties.answer (calls ++ [.record job (some result) now]) result = true := by
  rw [Passes, if_neg (Bool.eq_false_iff.mp failed)] at passes
  rw [answer, notifier_record, Notifier.shouldNotify, Notifier.judge,
    if_neg (Bool.eq_false_iff.mp failed)]
  dsimp only
  rw [if_pos passes.2]

/-- ... and so is a success after a failure. -/
theorem answer_of_recovery {calls : List Call} (good : parties.Good calls) {job : JobConfig}
    {result last : ExecutionResult} {now : DateTime}
    (passes : parties.Passes calls (.record job (some result) now))
    (succeeded : result.success = true)
    (ended : lastOf result.jobName (executed calls) = some last) (failed : last.success = false) :
    parties.answer (calls ++ [.record job (some result) now]) result = true := by
  rw [Passes, if_pos succeeded] at passes
  obtain ⟨-, notify, nonzero⟩ := passes last ended failed
  have code : ((parties.notifier calls).getState result.jobName).lastExitCode =
      some last.exitCode := by
    rw [notifier, Notifier.lastExitCode_run, good.failures _ _ ended failed]
    rfl
  rw [answer, notifier_record, Notifier.shouldNotify, Notifier.judge, if_pos succeeded]
  dsimp only
  rw [code]
  simp [nonzero, notify]

/-! ## One run more -/

/-- A call that is none of the alerter carries no level. -/
theorem TrueLevels.untold {calls : List Call} (levels : parties.TrueLevels calls) {call : Call}
    (untold : told? call = none) : parties.TrueLevels (calls ++ [call]) := by
  refine (forall_splits_append_single calls call).mpr ⟨levels, ?_⟩
  unfold Truthful
  split
  · cases untold
  · trivial

theorem events_recorded (calls : List Call) (job : JobConfig) (result : ExecutionResult)
    (now : DateTime) :
    parties.events (calls ++ [.record job (some result) now] ++ [.shouldNotify (some result)]) =
      parties.events calls ++ [.shouldNotify result
        (parties.monotonic (calls ++ [.record job (some result) now]))] := by
  rw [events_append_single, events_of_unjudged rfl]
  rfl

section OneRun

variable {calls : List Call} (good : parties.Good calls)

include good

/-- A call that is no part of a run. -/
theorem Good.idle {call : Call} (unrun : ran? call = none) (untold : told? call = none)
    (unjudged : parties.judged calls call = none) : parties.Good (calls ++ [call]) where
  counts jobName := by
    rw [heard_of_untold untold, executed_of_unrun unrun]
    exact good.counts jobName
  failures jobName last ended failed := by
    rw [executed_of_unrun unrun] at ended
    rw [events_of_unjudged unjudged]
    exact good.failures jobName last ended failed
  levels := good.levels.untold untold

variable {job : JobConfig} {result : ExecutionResult} {now : DateTime}

/-- A job whose last run did not fail has no failures in a row. -/
theorem Good.heard_zero
    (ended : ∀ last, lastOf result.jobName (executed calls) = some last → last.success = true) :
    streak result.jobName (heard calls) = 0 :=
  (good.counts _).trans (streak_eq_zero ended)

/-- A success that nobody hears of does no harm when the run before it did not fail. -/
theorem Good.unheard (succeeded : result.success = true)
    (ended : ∀ last, lastOf result.jobName (executed calls) = some last → last.success = true)
    {calls' : List Call} (executed_eq : executed calls' = executed calls ++ [result])
    (heard_eq : heard calls' = heard calls) (levels : parties.TrueLevels calls')
    (previous_eq : ∀ jobName, jobName ≠ result.jobName →
      Notifier.previous jobName (parties.events calls') =
        Notifier.previous jobName (parties.events calls)) : parties.Good calls' where
  counts jobName := by
    rw [heard_eq, executed_eq, EscalatingAlerter.streak_append_single]
    by_cases own : result.jobName = jobName
    · subst own
      rw [streakAfter_self, if_pos succeeded]
      exact good.heard_zero ended
    · rw [streakAfter_of_ne fun same => own same.symm]
      exact good.counts jobName
  failures jobName last ended' failed := by
    rw [executed_eq, lastOf_append_single] at ended'
    split at ended'
    · cases ended'
      rw [succeeded] at failed
      cases failed
    · rename_i other
      rw [previous_eq jobName fun same => other same.symm]
      exact good.failures jobName last ended' failed
  levels := levels

/-- A run whose result is recorded, judged and handed to the alerter. -/
theorem Good.told :
    parties.Good (calls ++ [.record job (some result) now] ++ [.shouldNotify (some result)] ++
      [.send (some result)]) := by
  have executed_eq : executed (calls ++ [.record job (some result) now] ++
      [.shouldNotify (some result)]) = executed calls ++ [result] := by
    rw [executed_of_unrun rfl, executed_append_single]
    rfl
  have heard_eq : heard (calls ++ [.record job (some result) now] ++
      [.shouldNotify (some result)]) = heard calls := by
    rw [heard_of_untold rfl, heard_of_untold rfl]
  have executed_told : executed (calls ++ [.record job (some result) now] ++
      [.shouldNotify (some result)] ++ [.send (some result)]) = executed calls ++ [result] := by
    rw [executed_of_unrun rfl, executed_eq]
  have events_told : parties.events (calls ++ [.record job (some result) now] ++
      [.shouldNotify (some result)] ++ [.send (some result)]) =
        parties.events calls ++ [.shouldNotify result
          (parties.monotonic (calls ++ [.record job (some result) now]))] := by
    rw [events_of_unjudged rfl, events_recorded]
  refine ⟨fun jobName => ?_, fun jobName last ended failed => ?_, ?_⟩
  · rw [executed_told, heard_append_single, heard_eq]
    show streak jobName (heard calls ++ [result]) = _
    rw [EscalatingAlerter.streak_append_single, EscalatingAlerter.streak_append_single,
      good.counts jobName]
  · rw [executed_told, lastOf_append_single] at ended
    rw [events_told, Notifier.previous_append_single, Notifier.previousAfter]
    by_cases own : result.jobName = jobName
    · rw [if_pos own] at ended ⊢
      exact ended
    · rw [if_neg own] at ended ⊢
      exact good.failures jobName last ended failed
  · refine (forall_splits_append_single _ _).mpr
      ⟨(good.levels.untold rfl).untold rfl, fun failed => ?_⟩
    rw [inner_append_single _ failed, levelOf, heard_eq, executed_eq,
      EscalatingAlerter.streak_append_single, streakAfter_self,
      if_neg (Bool.eq_false_iff.mp failed), good.counts]

/-- A run that passes and that the history does not take. -/
theorem Good.unrecorded (passes : parties.Passes calls (.record job (some result) now))
    (raised : parties.record calls (some result) ≠ .ok ()) :
    parties.Good (calls ++ [.record job (some result) now]) := by
  have succeeded : result.success = true := by
    by_contra failed
    rw [Passes, if_neg failed] at passes
    exact raised passes.1
  have ended : ∀ last, lastOf result.jobName (executed calls) = some last → last.success = true := by
    intro last ended
    by_contra failed
    rw [Passes, if_pos succeeded] at passes
    exact raised (passes last ended (Bool.not_eq_true _ |>.mp failed)).1
  refine good.unheard succeeded ended (executed_append_single _ _) (heard_of_untold rfl _)
    (good.levels.untold rfl) fun jobName _ => ?_
  rw [events_of_unjudged rfl]

/-- A run that passes and that the notifier does not let through. -/
theorem Good.suppressed (passes : parties.Passes calls (.record job (some result) now))
    (held : parties.answer (calls ++ [.record job (some result) now]) result = false) :
    parties.Good (calls ++ [.record job (some result) now] ++ [.shouldNotify (some result)]) := by
  have succeeded : result.success = true := by
    by_contra failed
    rw [answer_of_failure passes (Bool.not_eq_true _ |>.mp failed)] at held
    cases held
  have ended : ∀ last, lastOf result.jobName (executed calls) = some last → last.success = true := by
    intro last ended
    by_contra failed
    rw [answer_of_recovery good passes succeeded ended (Bool.not_eq_true _ |>.mp failed)] at held
    cases held
  refine good.unheard succeeded ended ?_ ?_ ((good.levels.untold rfl).untold rfl) ?_
  · rw [executed_of_unrun rfl, executed_append_single]
    rfl
  · rw [heard_of_untold rfl, heard_of_untold rfl]
  · intro jobName other
    rw [events_recorded, Notifier.previous_append_single, Notifier.previousAfter]
    exact if_neg fun same => other same.symm

end OneRun

/-! ## Ticks -/

/-- A pipeline without a breaker, in which all is well while the tracker hears what moves
its count. -/
def Kept (parties : Parties) (p : RunPipeline) : Prop :=
  p.circuitBreaker = none ∧ (parties.Heard p.calls → parties.Good p.calls)

theorem Kept.made {p : RunPipeline} (kept : parties.Kept p) {call : Call} (unrun : ran? call = none)
    (untold : told? call = none) (unjudged : parties.judged p.calls call = none) :
    parties.Kept (p.made call) :=
  ⟨kept.1, fun heard => (kept.2 heard.front.1).idle unrun untold unjudged⟩

variable (parties) in
/-- The alert of a recorded result ends in one of two ways. -/
theorem alert_cases (job : JobConfig) (result : ExecutionResult) (p : RunPipeline) :
    (parties.answer p.calls result = false ∧
        (RunPipeline.alert parties.env job (some result) p).2 =
          p.made (.shouldNotify (some result))) ∨
      (RunPipeline.alert parties.env job (some result) p).2 =
        (p.made (.shouldNotify (some result))).made (.send (some result)) := by
  have judged : parties.env.shouldNotify p.calls (some result) =
      .ok (parties.answer p.calls result) := rfl
  unfold RunPipeline.alert
  rw [judged]
  cases parties.answer p.calls result with
  | false => exact .inl ⟨rfl, rfl⟩
  | true =>
      refine .inr ?_
      dsimp only
      split <;> rfl

/-- **One result.** -/
theorem Kept.conclude {p : RunPipeline} (kept : parties.Kept p) (job : JobConfig)
    (result : Option ExecutionResult) :
    parties.Kept (RunPipeline.conclude parties.env job result p).2 := by
  have unbroken : p.report = .ok () := by
    rw [RunPipeline.report, kept.1]
  unfold RunPipeline.conclude
  split
  · rename_i e raised
    cases result with
    | none => exact kept.made rfl rfl rfl
    | some result =>
        refine ⟨kept.1, fun heard => (kept.2 heard.front.1).unrecorded heard.front.2 ?_⟩
        rw [show parties.record p.calls (some result) = .error e from raised]
        simp
  · rw [unbroken]
    dsimp only
    cases result with
    | none =>
        have recorded : parties.Kept (p.made (.record job none (parties.env.utcnow p.calls))) :=
          kept.made rfl rfl rfl
        exact recorded.made rfl rfl rfl
    | some result =>
        rcases alert_cases parties job result
          (p.made (.record job (some result) (parties.env.utcnow p.calls))) with ⟨held, ended⟩ | ended
        · rw [ended]
          exact ⟨kept.1, fun heard =>
            (kept.2 heard.front.1.front.1).suppressed heard.front.1.front.2 held⟩
        · rw [ended]
          exact ⟨kept.1, fun heard => (kept.2 heard.front.1.front.1.front.1).told⟩

/-- **One job.** -/
theorem Kept.process {p : RunPipeline} (kept : parties.Kept p) (job : JobConfig) :
    parties.Kept (RunPipeline.process parties.env job p).2 := by
  have asked : parties.Kept (p.made (.isDue job)) := kept.made rfl rfl rfl
  unfold RunPipeline.process
  split
  · exact asked
  · exact asked
  · rw [RunPipeline.circuitOpen, asked.1]
    dsimp only
    unfold RunPipeline.execute
    split
    · exact asked.made rfl rfl rfl
    · split
      · exact asked.made rfl rfl rfl
      · exact Kept.conclude (asked.made rfl rfl rfl) job _

/-- **Any number of ticks.** -/
theorem kept_ticks (parties : Parties) (jobs : List JobConfig) (n : Nat) :
    parties.Kept (RunPipeline.ticks parties.env n { jobs }) := by
  induction n with
  | zero =>
      refine ⟨rfl, fun _ => ⟨fun _ => rfl, fun _ _ ended => ?_, forall_splits_nil⟩⟩
      cases ended
  | succ n ih => exact loop_invariant (fun job _ _ kept => Kept.process kept job) ih

/-- **Alerts carry the true level** in every run in which nothing that moves a count is held
back. -/
theorem levels_true (parties : Parties) (jobs : List JobConfig) (n : Nat)
    (heard : parties.Heard (RunPipeline.ticks parties.env n { jobs }).calls) :
    parties.TrueLevels (RunPipeline.ticks parties.env n { jobs }).calls :=
  ((kept_ticks parties jobs n).2 heard).levels

end Parties

def nightly : JobConfig where
  name := "backup"
  command := "/usr/local/bin/backup.sh"
  schedule := "0 3 * * *"

def failure : ExecutionResult where
  jobName := "backup"
  exitCode := 1
  stdout := ""
  stderr := ""
  durationSeconds := 4
  startedAt := 0
  finishedAt := 4

/-- A job that fails in every tick, with these readings of the clock. -/
def failing (readings : List ℚ) : Parties where
  minIntervalSeconds := 3600
  notifyOnRecovery := true
  policy := { levels := [⟨"warning", 1⟩, ⟨"critical", 3⟩] }
  upper := fun level => if level = "warning" then "WARNING" else "CRITICAL"
  isDue _ _ := .ok true
  run _ _ := .ok { result := some failure }
  record _ _ := .ok ()
  utcnow _ := 0
  monotonic calls := readings.getD ((executed calls).length - 1) 0
  deliver _ _ := .ok ()

/-- Failures that are an hour apart are all heard of. -/
theorem hourly_levels :
    (failing [4000, 8000]).TrueLevels
      (RunPipeline.ticks (failing [4000, 8000]).env 2 { jobs := [nightly] }).calls := by
  refine Parties.levels_true (failing [4000, 8000]) [nightly] 2 ?_
  have calls : (RunPipeline.ticks (failing [4000, 8000]).env 2 { jobs := [nightly] }).calls =
      [.isDue nightly, .run nightly 0, .record nightly (some failure) 0, .shouldNotify (some failure),
        .send (some failure), .isDue nightly, .run nightly 0, .record nightly (some failure) 0,
        .shouldNotify (some failure), .send (some failure)] := by
    decide +kernel
  have first : (failing [4000, 8000]).Passes [.isDue nightly, .run nightly 0]
      (.record nightly (some failure) 0) := by
    rw [Parties.Passes, if_neg (by decide)]
    exact ⟨rfl, by decide +kernel⟩
  have second : (failing [4000, 8000]).Passes [.isDue nightly, .run nightly 0,
      .record nightly (some failure) 0, .shouldNotify (some failure), .send (some failure),
      .isDue nightly, .run nightly 0] (.record nightly (some failure) 0) := by
    rw [Parties.Passes, if_neg (by decide)]
    exact ⟨rfl, by decide +kernel⟩
  rw [calls]
  iterate 2 refine forall_splits_cons trivial ?_
  refine forall_splits_cons first ?_
  iterate 4 refine forall_splits_cons trivial ?_
  refine forall_splits_cons second ?_
  iterate 2 refine forall_splits_cons trivial ?_
  exact forall_splits_nil

/-- Of three failures the second is held back, and the third names the level of two. -/
theorem level_lags :
    ¬ (failing [4000, 4010, 8000]).TrueLevels
      (RunPipeline.ticks (failing [4000, 4010, 8000]).env 3 { jobs := [nightly] }).calls := by
  intro levels
  have third : (RunPipeline.ticks (failing [4000, 4010, 8000]).env 3 { jobs := [nightly] }).calls =
      (RunPipeline.ticks (failing [4000, 4010, 8000]).env 3 { jobs := [nightly] }).calls.dropLast ++
        [.send (some failure)] := by
    decide +kernel
  have same := (Parties.trueLevels_iff _).mp levels _ failure [] third (by decide)
  exact absurd same (by decide +kernel)

end Cronwatch.Alerts.EscalatedPipeline
