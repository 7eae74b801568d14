/-
# Alerts.ChecksumRestart -- command changes, when the process stops in a check

A run is a list of checks, some of which the process does not live through: it stops
after some of the file steps of the check, and is restarted with a store that is opened
anew on the file.  Every check has its own alerter.

`Noticed` is what a run should do: between the last check before a stop that looked at a
job, and the first one after it, a change of the job's command is reported.  A stop
between the truncation of the file and the write loses every digest, and a stop after
the write loses a change that is recorded and not reported yet (`stop_hides_change`).
In every run whose stops do neither, and whose checks return, changes are noticed
(`changes_noticed`).
-/
import Cronwatch.Alerts.ChecksumWatcher

namespace Cronwatch.Alerts.ChecksumWatcher

set_option autoImplicit false

open Cronwatch.Theory Cronwatch.Theory.Loop Cronwatch.Runtime Cronwatch.Jobs
open Cronwatch.Jobs.ChecksumStore

/-- A run's event, with the alerter of the check and the jobs that it is about. -/
inductive Event where
  /-- A check that the process lives through, whether it returns or raises. -/
  | checked (send : List Attempt → Message → Except PyException Unit) (jobs : List JobConfig)
  /-- A check in which the process stops, after `n` file steps; it is restarted. -/
  | stopped (send : List Attempt → Message → Except PyException Unit) (jobs : List JobConfig)
      (n : Nat)

def Event.jobs : Event → List JobConfig
  | .checked _ jobs | .stopped _ jobs _ => jobs

def Event.isStop : Event → Bool
  | .checked _ _ => false
  | .stopped _ _ _ => true

/-- The store that is opened on the file after these file steps. -/
def reopened (made : List WriteStep) (s : ChecksumStore) : ChecksumStore :=
  .new ((made.getLast?.map WriteStep.file).getD s.file)

section Runs

variable (checksum : String → String)

/-- The file steps of a check. -/
def fileSteps (send : List Attempt → Message → Except PyException Unit) (jobs : List JobConfig)
    (w : ChecksumWatcher) : List WriteStep :=
  (w.check ⟨checksum, send⟩ jobs).2.store.steps.drop w.store.steps.length

def step (w : ChecksumWatcher) : Event → ChecksumWatcher
  | .checked send jobs => (w.check ⟨checksum, send⟩ jobs).2
  | .stopped send jobs n => { store := reopened ((w.fileSteps checksum send jobs).take n) w.store }

def run (events : List Event) (w : ChecksumWatcher) : ChecksumWatcher :=
  events.foldl (step checksum) w

/-- The command of the job that a check looks at last. -/
def lastCommand (jobName : String) (jobs : List JobConfig) : Option String :=
  ((jobs.filter fun job => job.name = jobName).getLast?).map JobConfig.command

/-- The event is a check that returns. -/
def Returns (w : ChecksumWatcher) : Event → Prop
  | .checked send jobs => ∃ changes, (w.check ⟨checksum, send⟩ jobs).1 = .ok changes
  | .stopped _ _ _ => False

/-- **A change is noticed**: of two checks that return and list the job, with a stop
between them and no other such check, the later reports a command that is not the one
that the earlier looked at last. -/
def Noticed (w : ChecksumWatcher) (events : List Event) : Prop :=
  ∀ before earlier between send jobs after,
    events = before ++ earlier :: (between ++ .checked send jobs :: after) →
    Returns checksum (run checksum before w) earlier →
    (∃ e ∈ between, e.isStop = true) →
    ∀ jobName command, lastCommand jobName earlier.jobs = some command →
    (∀ front e back, between = front ++ e :: back → Lists jobName e.jobs →
      ¬ Returns checksum (run checksum (before ++ earlier :: front) w) e) →
    ∀ changes,
      ((run checksum (before ++ earlier :: between) w).check ⟨checksum, send⟩ jobs).1 = .ok changes →
    ∀ job ∈ jobs, job.name = jobName → job.command ≠ command →
    ∃ change ∈ changes, change.jobName = jobName

/-! ## Steps that lose nothing -/

/-- The check returns; or the file steps made before the stop are for jobs that had no
digest, and the last is no truncation unless the store had no digest at all. -/
def Harmless (w : ChecksumWatcher) : Event → Prop
  | .checked send jobs => Returns checksum w (.checked send jobs)
  | .stopped send jobs n =>
      (∀ made ∈ (w.fileSteps checksum send jobs).take n, w.store.get made.jobName = none) ∧
        (∀ last ∈ ((w.fileSteps checksum send jobs).take n).getLast?, last.file = .unreadable →
          ∀ jobName, w.store.get jobName = none)

/-- Different commands of a job that the run comes to have different digests. -/
def DigestsDiffer (events : List Event) : Prop :=
  ∀ e ∈ events, ∀ e' ∈ events, ∀ job ∈ e.jobs, ∀ job' ∈ e'.jobs, job.name = job'.name →
    job.command ≠ job'.command → checksum job.command ≠ checksum job'.command

instance (events : List Event) : Decidable (DigestsDiffer checksum events) :=
  inferInstanceAs (Decidable (∀ e ∈ events, ∀ e' ∈ events, ∀ job ∈ e.jobs, ∀ job' ∈ e'.jobs,
    job.name = job'.name → job.command ≠ job'.command →
      checksum job.command ≠ checksum job'.command))

end Runs

variable {env : Env}

/-- The file holds what the store holds in memory. -/
def Synced (w : ChecksumWatcher) : Prop := load w.store.file = w.store.data

/-- After these file steps and this one, the file is truncated, or has the digests of all
jobs that no step was for. -/
def Leaves (w : ChecksumWatcher) (front : List WriteStep) (step : WriteStep) : Prop :=
  ∀ jobName, (∀ other ∈ front ++ [step], other.jobName ≠ jobName) →
    step.file = .unreadable ∨ (load step.file).get? jobName = w.store.get jobName

/-- The file steps made since `w`, and the digests of the jobs that none of them was for. -/
structure Writes (w w' : ChecksumWatcher) (made : List WriteStep) : Prop where
  steps : w'.store.steps = w.store.steps ++ made
  synced : Synced w'
  others : ∀ jobName, (∀ step ∈ made, step.jobName ≠ jobName) →
    w'.store.get jobName = w.store.get jobName
  files : ∀ front step back, made = front ++ step :: back → Leaves w front step

theorem Writes.refl {w : ChecksumWatcher} (synced : Synced w) : Writes w w [] :=
  ⟨(List.append_nil _).symm, synced, fun _ _ => rfl, by simp⟩

variable (env) in
/-- **One record**: a truncation and a write. -/
theorem Writes.record {w w' : ChecksumWatcher} {made : List WriteStep} (writes : Writes w w' made)
    (job : JobConfig) : ∃ made', Writes w (w'.record env job) made' := by
  have others : ∀ jobName, (∀ step ∈ (made ++ [⟨job.name, .unreadable⟩]) ++
      [⟨job.name, .holds (w'.record env job).store.data⟩], step.jobName ≠ jobName) →
      (w'.record env job).store.get jobName = w.store.get jobName := by
    intro jobName apart
    have ne : jobName ≠ job.name := fun same => apart ⟨job.name, .unreadable⟩ (by simp) same.symm
    refine (get_record_of_ne ne).trans (writes.others jobName fun step member => ?_)
    exact apart step (List.mem_append_left _ (List.mem_append_left _ member))
  refine ⟨_, ?_, rfl, others, ?_⟩
  · rw [List.append_assoc, ← List.append_assoc, ← writes.steps]
    exact steps_record
  · refine (forall_splits_append_single (P := Leaves w) _ _).mpr
      ⟨(forall_splits_append_single _ _).mpr ⟨writes.files, ?_⟩, ?_⟩
    · exact fun jobName _ => .inl rfl
    · exact fun jobName apart => .inr (others jobName apart)

/-- **One job.** -/
theorem Writes.inspect {w w' : ChecksumWatcher} (writes : ∃ made, Writes w w' made)
    (job : JobConfig) : ∃ made, Writes w (w'.inspect env job).2 made := by
  obtain ⟨made, writes⟩ := writes
  rcases inspect_cases env job w' with ⟨-, ended⟩ | ⟨-, ended⟩ | ⟨-, ⟨e, ended⟩ | ended⟩
  · rw [ended]
    exact ⟨made, writes⟩
  all_goals
    rw [ended]
    obtain ⟨made', grown⟩ := writes.record env job
    exact ⟨made', grown.steps, grown.synced, grown.others, grown.files⟩

variable (env) in
/-- **One check.** -/
theorem Writes.check {w : ChecksumWatcher} (synced : Synced w) (jobs : List JobConfig) :
    ∃ made, Writes w (w.check env jobs).2 made :=
  loop_invariant (I := fun w' => ∃ made, Writes w w' made)
    (fun job _ _ writes => Writes.inspect writes job) ⟨[], .refl synced⟩

/-! ## What a check finds -/

theorem check_unlisted {w : ChecksumWatcher} {jobs : List JobConfig} {jobName : String}
    (unlisted : ¬ Lists jobName jobs) :
    (w.check env jobs).2.store.get jobName = w.store.get jobName := by
  refine loop_invariant (I := fun w' : ChecksumWatcher => w'.store.get jobName =
    w.store.get jobName) (fun job member w' kept => ?_) rfl
  rw [(inspect_spec env job w').others jobName fun same => unlisted ⟨job, member, same.symm⟩]
  exact kept

theorem lastCommand_cons (jobName : String) (job : JobConfig) (rest : List JobConfig) :
    lastCommand jobName (job :: rest) =
      (lastCommand jobName rest).or (if job.name = jobName then some job.command else none) := by
  unfold lastCommand
  by_cases own : job.name = jobName
  · rw [List.filter_cons_of_pos (by simpa using own), List.getLast?_cons, if_pos own]
    cases (rest.filter fun job => job.name = jobName).getLast? <;> rfl
  · rw [List.filter_cons_of_neg (by simpa using own), if_neg own, Option.or_none]

theorem mem_of_lastCommand {jobName command : String} {jobs : List JobConfig}
    (last : lastCommand jobName jobs = some command) :
    ∃ job ∈ jobs, job.name = jobName ∧ job.command = command := by
  obtain ⟨job, ended, ran⟩ := Option.map_eq_some_iff.mp last
  obtain ⟨member, own⟩ := List.mem_filter.mp (List.mem_of_getLast? ended)
  exact ⟨job, member, of_decide_eq_true own, ran⟩

theorem not_lists_of_lastCommand {jobName : String} {jobs : List JobConfig}
    (none_ : lastCommand jobName jobs = none) : ¬ Lists jobName jobs := by
  rintro ⟨job, member, own⟩
  have empty := List.getLast?_eq_none_iff.mp (Option.map_eq_none_iff.mp none_)
  exact List.filter_eq_nil_iff.mp empty job member (by simpa using own)

variable (env) in
/-- A check that returns leaves the digest of the command that it looked at last. -/
theorem check_last {jobs : List JobConfig} {jobName command : String}
    (last : lastCommand jobName jobs = some command) {w : ChecksumWatcher}
    (returned : ∃ changes, (w.check env jobs).1 = .ok changes) :
    (w.check env jobs).2.store.get jobName = some (env.checksum command) := by
  induction jobs generalizing w with
  | nil => cases last
  | cons job rest ih =>
      have own := (inspect_spec env job w).own
      rcases ended : w.inspect env job with ⟨e | given, w'⟩
      · exact absurd returned (not_loop_cons_returns ended)
      · rw [ended] at own
        rw [check, loop_cons_returns ended] at returned
        rw [check, loop_cons_of_ok ended]
        rw [lastCommand_cons] at last
        rcases later : lastCommand jobName rest with _ | command'
        · rw [later, Option.none_or] at last
          split at last
          · rename_i here
            subst here
            cases last
            exact (check_unlisted (not_lists_of_lastCommand later)).trans own
          · cases last
        · rw [later, Option.some_or] at last
          cases last
          exact ih later returned

variable (env) in
/-- A check that returns reports a job with a command of another digest. -/
theorem check_reports {jobs : List JobConfig} {jobName digest : String} {w : ChecksumWatcher}
    (known : w.store.get jobName = some digest) {changes : List CommandChange}
    (returned : (w.check env jobs).1 = .ok changes) {job : JobConfig} (member : job ∈ jobs)
    (own : job.name = jobName) (differs : env.checksum job.command ≠ digest) :
    ∃ change ∈ changes, change.jobName = jobName := by
  induction jobs generalizing w changes with
  | nil => cases member
  | cons first rest ih =>
      rcases ended : w.inspect env first with ⟨e | given, w'⟩
      · rw [check, loop_cons_of_error ended] at returned
        cases returned
      · obtain ⟨later, returnedLater, rfl⟩ := loop_cons_collects ended returned
        by_cases here : first.name = jobName
        · subst here
          rcases inspect_cases env first w with ⟨same, skipped⟩ | ⟨unknown, -⟩ |
            ⟨-, ⟨e, raised⟩ | reported⟩
          · rw [skipped] at ended
            cases ended
            rw [known] at same
            cases same
            rcases List.mem_cons.mp member with rfl | inRest
            · exact absurd rfl differs
            · exact ih known returnedLater inRest
          · rw [known] at unknown
            cases unknown
          · rw [raised] at ended
            cases ended
          · rw [reported] at ended
            cases ended
            exact ⟨w.changeOf env first, List.mem_cons_self, rfl⟩
        · have kept := (inspect_spec env first w).others jobName fun same => here same.symm
          rw [ended] at kept
          rcases List.mem_cons.mp member with rfl | inRest
          · exact absurd own here
          · obtain ⟨change, found, named⟩ := ih (kept.trans known) returnedLater inRest
            exact ⟨change, List.mem_append_right _ found, named⟩

/-! ## Runs whose stops lose nothing -/

section Runs

variable {checksum : String → String}

theorem Synced.step {w : ChecksumWatcher} (synced : Synced w) (e : Event) :
    Synced (step checksum w e) := by
  cases e with
  | checked send jobs =>
      obtain ⟨made, writes⟩ := Writes.check ⟨checksum, send⟩ synced jobs
      exact writes.synced
  | stopped send jobs n => rfl

theorem run_append (events events' : List Event) (w : ChecksumWatcher) :
    run checksum (events ++ events') w = run checksum events' (run checksum events w) :=
  List.foldl_append

theorem synced_run (file : File) (events : List Event) :
    Synced (run checksum events { store := .new file }) := by
  induction events using List.reverseRecOn with
  | nil => rfl
  | append_singleton before e ih =>
      rw [run_append]
      exact ih.step e

/-- **One stop** that loses nothing. -/
theorem Harmless.keeps {w : ChecksumWatcher} (synced : Synced w) {send jobs n}
    (harmless : Harmless checksum w (.stopped send jobs n)) {jobName digest : String}
    (known : w.store.get jobName = some digest) :
    (step checksum w (.stopped send jobs n)).store.get jobName = some digest := by
  obtain ⟨unknown, written⟩ := harmless
  obtain ⟨made, writes⟩ := Writes.check ⟨checksum, send⟩ synced jobs
  have made_eq : w.fileSteps checksum send jobs = made := by
    rw [fileSteps, writes.steps, List.drop_left]
  rw [made_eq] at unknown written
  show (reopened ((w.fileSteps checksum send jobs).take n) w.store).get jobName = some digest
  rw [made_eq]
  have apart : ∀ other ∈ made.take n, other.jobName ≠ jobName := by
    rintro other member rfl
    have absent := unknown other member
    rw [known] at absent
    cases absent
  rcases (made.take n).eq_nil_or_concat with none_ | ⟨front, last, ended⟩
  · rw [none_]
    show (load w.store.file).get? jobName = some digest
    rw [synced]
    exact known
  · rw [List.concat_eq_append] at ended
    rw [ended] at apart written ⊢
    have split : made = front ++ last :: made.drop n := by
      rw [List.append_cons, ← ended, List.take_append_drop]
    rw [reopened, List.getLast?_concat]
    rcases writes.files front last _ split jobName apart with truncated | left_
    · have absent := written last (by simp) truncated jobName
      rw [known] at absent
      cases absent
    · exact left_.trans known

/-- **One event** that loses nothing, and is no check that looks at the job. -/
theorem Harmless.step {w : ChecksumWatcher} (synced : Synced w) {e : Event}
    (harmless : Harmless checksum w e) {jobName digest : String}
    (unseen : Lists jobName e.jobs → ¬ Returns checksum w e)
    (known : w.store.get jobName = some digest) :
    (step checksum w e).store.get jobName = some digest := by
  cases e with
  | checked send jobs => exact (check_unlisted fun listed => unseen listed harmless).trans known
  | stopped send jobs n => exact harmless.keeps synced known

/-- **A change is noticed** in every run whose checks return, whose stops lose nothing, and
in which the commands of a job differ in their digests. -/
theorem changes_noticed (checksum : String → String) (file : File) (events : List Event)
    (digests : DigestsDiffer checksum events)
    (harmless : ∀ before e after, events = before ++ e :: after →
      Harmless checksum (run checksum before { store := .new file }) e) :
    Noticed checksum { store := .new file } events := by
  intro before earlier between send jobs after split returned _ jobName command last unseen
    changes reported job member own differs
  have known : (run checksum (before ++ [earlier]) { store := .new file }).store.get jobName =
      some (checksum command) := by
    rw [run_append]
    cases earlier with
    | checked send' jobs' => exact check_last ⟨checksum, send'⟩ last returned
    | stopped => exact absurd returned not_false
  have kept : ∀ front back, between = front ++ back →
      (run checksum (before ++ earlier :: front) { store := .new file }).store.get jobName =
        some (checksum command) := by
    intro front
    induction front using List.reverseRecOn with
    | nil => exact fun _ _ => known
    | append_singleton front e ih =>
        intro back regrouped
        rw [List.append_assoc, List.singleton_append] at regrouped
        have here := ih (e :: back) regrouped
        rw [← List.cons_append, ← List.append_assoc, run_append]
        refine (harmless (before ++ earlier :: front) e (back ++ .checked send jobs :: after)
          ?_).step (synced_run file _) (unseen front e back regrouped) here
        rw [split, regrouped, List.append_assoc, List.append_assoc, List.cons_append,
          List.cons_append]
  refine check_reports ⟨checksum, send⟩ (kept between [] (List.append_nil _).symm)
    reported member own ?_
  obtain ⟨seen, inEarlier, named, rfl⟩ := mem_of_lastCommand last
  exact digests (.checked send jobs) (by simp [split]) earlier (by simp [split]) job member seen
    inEarlier (own.trans named.symm) differs

end Runs

def alerterUp : List Attempt → Message → Except PyException Unit := fun _ _ => .ok ()

/-- The command of `backup` is changed, and the process stops in the check that comes to it. -/
def stoppedAfter (n : Nat) : List Event :=
  [.checked alerterUp [backup "tar -cf /srv/backup.tar /data"],
    .stopped alerterUp [backup "tar -czf /srv/backup.tgz /data"] n,
    .checked alerterUp [backup "tar -czf /srv/backup.tgz /data"]]

/-- A stop before the truncation hides nothing. -/
theorem stop_before_noticed :
    Noticed backupDigest { store := .new .missing } (stoppedAfter 0) := by
  refine changes_noticed backupDigest .missing (stoppedAfter 0) (by decide +kernel) ?_
  refine forall_splits_cons ⟨[], by decide +kernel⟩ (forall_splits_cons ?_ (forall_splits_cons
    ⟨_, rfl⟩ forall_splits_nil))
  exact ⟨by simp, by simp⟩

theorem not_noticed {n : Nat} (member : n ∈ [1, 2]) :
    ¬ Noticed backupDigest { store := .new .missing } (stoppedAfter n) := by
  intro law
  have first : Returns backupDigest { store := .new .missing }
      (.checked alerterUp [backup "tar -cf /srv/backup.tar /data"]) := ⟨[], by decide +kernel⟩
  have last : ∀ n ∈ [1, 2], ((run backupDigest [.checked alerterUp [backup "tar -cf /srv/backup.tar /data"],
      .stopped alerterUp [backup "tar -czf /srv/backup.tgz /data"] n] { store := .new .missing }).check
      ⟨backupDigest, alerterUp⟩ [backup "tar -czf /srv/backup.tgz /data"]).1 = .ok [] := by
    decide +kernel
  obtain ⟨change, impossible, -⟩ := law [] _ [.stopped alerterUp _ n] alerterUp _ [] rfl first
    ⟨_, List.mem_cons_self, rfl⟩ "backup" _ rfl
    (forall_splits_cons (fun _ => not_false) forall_splits_nil) [] (last n member) _
    List.mem_cons_self rfl (by decide)
  cases impossible

/-- A stop after the truncation, or after the write, hides the change. -/
theorem stop_hides_change :
    ¬ Noticed backupDigest { store := .new .missing } (stoppedAfter 1) ∧
      ¬ Noticed backupDigest { store := .new .missing } (stoppedAfter 2) :=
  ⟨not_noticed (by simp), not_noticed (by simp)⟩

end Cronwatch.Alerts.ChecksumWatcher
