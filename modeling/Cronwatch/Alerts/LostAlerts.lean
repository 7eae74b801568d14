/-
# Alerts.LostAlerts -- alerts whose sending fails

`DeadlineAlerter` and `ChecksumWatcher` both take note of an alert before it is sent, the
one in its set of alerted jobs, the other in its store of digests.  `SLAAlerter`, which
marks a job after its alert was sent, is the other way round.

`none_lost_iff` puts the two together: nothing is sent twice, and no alert is lost exactly
when none that failed would have to be tried again.  `failed_alerts_lost` is a run of each
in which the alerter fails once, `failed_alerts_superseded` one in which that does no harm.
-/
import Cronwatch.Alerts.ChecksumWatcher
import Cronwatch.Alerts.DeadlineAlerter

namespace Cronwatch.Alerts

set_option autoImplicit false

open Cronwatch.Theory Cronwatch.Runtime Cronwatch.Jobs
open ChecksumWatcher (backup backupDigest)

/-- **When no alert is lost**: in the ticks of one day, when no job whose alert failed is
found late again; in any checks, when a job whose alert failed has another command at the
next check that lists it. -/
theorem none_lost_iff (deadlines : DeadlineAlerter.Env) {date : String}
    {old : List (String × String)} (new : ∀ jobName, (jobName, date) ∉ old)
    {ticks : List DeadlineAlerter.Tick} (today : ∀ call ∈ ticks, isoDate call.now = date)
    (commands : ChecksumWatcher.Env) (store : ChecksumStore) (checks : List (List JobConfig)) :
    (DeadlineAlerter.NoneLost deadlines old ticks ↔
        DeadlineAlerter.NoneLateAgain deadlines old ticks) ∧
      (ChecksumWatcher.NoneLost commands store checks ↔
        ChecksumWatcher.ChangedAgain commands store checks) :=
  ⟨DeadlineAlerter.retried_iff new today, ChecksumWatcher.retried_iff commands store checks⟩

/-! ## An alerter that fails once -/

def down : PyException := .foreign "Connection refused"

/-- A job that must have started by nine. -/
def ledger : DeadlineJob where
  name := "ledger"
  command := "/usr/local/bin/ledger.sh"
  schedule := "0 8 * * *"
  deadline := some "09:00"

def lateTick (hour : Int) : DeadlineAlerter.Tick where
  now := seconds (3600 * hour)
  checker := { jobs := [ledger] }

def deadlinesDownOnce : DeadlineAlerter.Env where
  repr := id
  send attempts _ := if attempts = [] then .error down else .ok ()

def commandsDownOnce : ChecksumWatcher.Env where
  checksum := backupDigest
  send attempts _ := if attempts = [] then .error down else .ok ()

/-- The command of `backup` is known, then changed. -/
def changedOnce : List (List JobConfig) :=
  [[backup "tar -cf /srv/backup.tar /data"], [backup "tar -czf /srv/backup.tgz /data"],
    [backup "tar -czf /srv/backup.tgz /data"]]

/-- The alert for `ledger` fails at ten and is not tried at eleven; that for the new command
of `backup` fails in the second check and is not tried in the third. -/
theorem failed_alerts_lost :
    ¬ DeadlineAlerter.NoneLost deadlinesDownOnce [] [lateTick 10, lateTick 11] ∧
      ¬ ChecksumWatcher.NoneLost commandsDownOnce (.new .missing) changedOnce := by
  constructor
  · intro law
    have failed : ∃ attempt ∈ DeadlineAlerter.attemptsOf deadlinesDownOnce [] [] (lateTick 10),
        attempt.violation.jobName = "ledger" ∧ attempt.sent = false := by
      decide +kernel
    have late : (lateTick 11).Late deadlinesDownOnce "ledger" :=
      ⟨[⟨"ledger", ⟨9, 0⟩, (lateTick 11).now⟩], by decide +kernel, _, List.mem_cons_self, rfl⟩
    obtain ⟨again, tried, -⟩ :=
      law.retried [] (lateTick 10) [] (lateTick 11) [] "ledger" rfl failed (by simp) late
    have none_ : DeadlineAlerter.attemptsOf deadlinesDownOnce [] [lateTick 10] (lateTick 11) = [] := by
      decide +kernel
    rw [List.nil_append, none_] at tried
    cases tried
  · intro law
    have failed : ∃ attempt ∈ ChecksumWatcher.attemptsOf commandsDownOnce (.new .missing)
        [[backup "tar -cf /srv/backup.tar /data"]] [backup "tar -czf /srv/backup.tgz /data"],
        attempt.sent = false ∧ attempt.change.jobName = "backup" ∧
          attempt.change.command = "tar -czf /srv/backup.tgz /data" := by
      decide +kernel
    obtain ⟨attempt, made, unsent, job, command⟩ := failed
    obtain ⟨again, tried, -⟩ :=
      law.retried [[backup "tar -cf /srv/backup.tar /data"]] _ [] _ [] rfl attempt made unsent
        (by simp) ⟨⟨_, List.mem_cons_self, job.symm⟩, by simp [backup, command]⟩
    have none_ : ChecksumWatcher.attemptsOf commandsDownOnce (.new .missing)
        ([[backup "tar -cf /srv/backup.tar /data"]] ++ [[backup "tar -czf /srv/backup.tgz /data"]])
        [backup "tar -czf /srv/backup.tgz /data"] = [] := by
      decide +kernel
    rw [none_] at tried
    cases tried

/-! ## Failures that nothing is lost by -/

def payroll : DeadlineJob := { ledger with name := "payroll", command := "/usr/local/bin/pay.sh" }

/-- `ledger` is not among the jobs any more. -/
def payrollTick (hour : Int) : DeadlineAlerter.Tick where
  now := seconds (3600 * hour)
  checker := { jobs := [payroll] }

def payrollTicks : List DeadlineAlerter.Tick := [lateTick 10, payrollTick 11, payrollTick 12]

/-- The command of `backup` is changed twice. -/
def changedTwice : List (List JobConfig) :=
  [[backup "tar -cf /srv/backup.tar /data"], [backup "tar -czf /srv/backup.tgz /data"],
    [backup "tar -cJf /srv/backup.txz /data"]]

/-- The alert for `ledger` fails at ten and no tick finds `ledger` late again; the one for
`payroll` is sent at eleven, and not again at twelve. -/
theorem payroll_none_late_again :
    DeadlineAlerter.NoneLateAgain deadlinesDownOnce [] payrollTicks := by
  have failed : ∀ before call after, payrollTicks = before ++ call :: after →
      ∀ attempt ∈ DeadlineAlerter.attemptsOf deadlinesDownOnce [] before call,
        attempt.sent = false → attempt.violation.jobName = "ledger" ∧ before = [] := by
    refine forall_splits_cons ?_ (forall_splits_cons ?_ (forall_splits_cons ?_ forall_splits_nil))
    · decide +kernel
    · decide +kernel
    · decide +kernel
  have others : ∀ hour ∈ [(11 : Int), 12],
      (payrollTick hour).checker.check id (payrollTick hour).now =
        .ok [⟨"payroll", ⟨9, 0⟩, (payrollTick hour).now⟩] := by
    decide +kernel
  rintro before call after jobName split ⟨attempt, made, job, unsent⟩ later member
    ⟨violations, checked, violation, found, late⟩
  obtain ⟨first, rfl⟩ := failed before call after split attempt made unsent
  obtain ⟨-, rfl⟩ := List.cons.inj split
  rw [← job, first] at late
  have hours : ∃ hour ∈ [(11 : Int), 12], later = payrollTick hour := by
    simpa using member
  obtain ⟨hour, inside, rfl⟩ := hours
  cases (others hour inside).symm.trans checked
  rw [List.mem_singleton.mp found] at late
  have same : "payroll" = "ledger" := late
  exact absurd same (by decide)

/-- The alert for the second command of `backup` fails, and the next check finds a third. -/
theorem backup_changed_again :
    ChecksumWatcher.ChangedAgain commandsDownOnce (.new .missing) changedTwice := by
  have failed : ∀ before call after, changedTwice = before ++ call :: after →
      ∀ attempt ∈ ChecksumWatcher.attemptsOf commandsDownOnce (.new .missing) before call,
        attempt.sent = false → attempt.change.jobName = "backup" ∧
          attempt.change.command = "tar -czf /srv/backup.tgz /data" ∧ before.length = 1 := by
    refine forall_splits_cons ?_ (forall_splits_cons ?_ (forall_splits_cons ?_ forall_splits_nil))
    · decide +kernel
    · decide +kernel
    · decide +kernel
  intro before call between later after split attempt made unsent _ _
  obtain ⟨job, command, one⟩ := failed before call _ split attempt made unsent
  obtain ⟨first, rfl⟩ := List.length_eq_one_iff.mp one
  simp only [changedTwice, List.cons_append, List.nil_append, List.cons.injEq] at split
  obtain ⟨-, -, split⟩ := split
  have third : later = [backup "tar -cJf /srv/backup.txz /data"] := by
    cases between with
    | nil => exact (List.cons.inj split).1.symm
    | cons jobs between => simp at split
  subst third
  refine ⟨_, List.mem_singleton.mpr rfl, job.symm, ?_⟩
  rw [command]
  decide

/-- Two alerts fail, and none is lost: `ledger` is not found late again, and the command of
`backup` changes once more. -/
theorem failed_alerts_superseded :
    (DeadlineAlerter.NoneLost deadlinesDownOnce [] payrollTicks ∧
        ChecksumWatcher.NoneLost commandsDownOnce (.new .missing) changedTwice) ∧
      (DeadlineAlerter.ticks deadlinesDownOnce payrollTicks {}).attempts.map
          (fun attempt => (attempt.violation.jobName, attempt.sent)) =
        [("ledger", false), ("payroll", true)] ∧
      (ChecksumWatcher.checks commandsDownOnce changedTwice { store := .new .missing }).attempts.map
          (fun attempt => (attempt.change.command, attempt.sent)) =
        [("tar -czf /srv/backup.tgz /data", false), ("tar -cJf /srv/backup.txz /data", true)] := by
  have today : ∀ call ∈ payrollTicks, isoDate call.now = "1970-01-01" := by
    decide +kernel
  have lawful := none_lost_iff deadlinesDownOnce (fun _ => List.not_mem_nil) today
    commandsDownOnce (.new .missing) changedTwice
  refine ⟨⟨lawful.1.mpr payroll_none_late_again, lawful.2.mpr backup_changed_again⟩, ?_, ?_⟩
  · decide +kernel
  · decide +kernel

end Cronwatch.Alerts
