/-
# Alerts.ChecksumWatcher -- one alert per changed command

`check` compares the command of every job with the digest in the store.  A job without a
digest is recorded; one whose digest is another is recorded and alerted.  The digest is
recorded before the alert is sent.  So an alert whose `send` raises counts as sent: the
next check finds the new digest.

`retried_iff`, for any number of checks: an alert that failed is tried again at the next
check that lists the job with the same command, exactly when no check comes that does;
and after an alert that was sent there is none for the same command before the command
has changed again.
-/
import Cronwatch.Alerts.Message
import Cronwatch.Jobs.Checksum
import Cronwatch.Jobs.Config
import Cronwatch.Theory.Loop
import Cronwatch.Theory.Splits

namespace Cronwatch.Alerts

set_option autoImplicit false

open Cronwatch.Theory Cronwatch.Theory.Loop Cronwatch.Runtime Cronwatch.Jobs

structure CommandChange where
  jobName : String
  oldDigest : Option String
  newDigest : String
  command : String
deriving DecidableEq

namespace ChecksumWatcher

/-- A call of `self._alerter.send`, and whether it returned. -/
structure Attempt where
  change : CommandChange
  message : Message
  sent : Bool
deriving DecidableEq

/-- The code handed in, and the digest; what the alerter answers may depend on the calls
made before. -/
structure Env where
  checksum : String → String
  send : List Attempt → Message → Except PyException Unit

end ChecksumWatcher

structure ChecksumWatcher where
  store : ChecksumStore
  attempts : List ChecksumWatcher.Attempt := []

namespace ChecksumWatcher

def message (change : CommandChange) : Message where
  subject := s!"[cronwatch] Command changed: {change.jobName}"
  body :=
    s!"Job '{change.jobName}' command has changed.\n" ++
    "Old digest : " ++ change.oldDigest.getD "None" ++ "\n" ++
    s!"New digest : {change.newDigest}\n" ++
    s!"New command: {change.command}"

def attempt (change : CommandChange) (sent : Bool) (w : ChecksumWatcher) : ChecksumWatcher :=
  { w with attempts := w.attempts ++ [⟨change, message change, sent⟩] }

/-- `self._alert(change)`. -/
def alert (env : Env) (change : CommandChange) (w : ChecksumWatcher) :
    Except PyException Unit × ChecksumWatcher :=
  match env.send w.attempts (message change) with
  | .error e => (.error e, w.attempt change false)
  | .ok () => (.ok (), w.attempt change true)

def record (env : Env) (job : JobConfig) (w : ChecksumWatcher) : ChecksumWatcher :=
  { w with store := w.store.record env.checksum job.name job.command }

def changeOf (env : Env) (job : JobConfig) (w : ChecksumWatcher) : CommandChange where
  jobName := job.name
  oldDigest := w.store.get job.name
  newDigest := env.checksum job.command
  command := job.command

/-- The body of the loop for one job, with the change it adds. -/
def inspect (env : Env) (job : JobConfig) (w : ChecksumWatcher) :
    Except PyException (Option CommandChange) × ChecksumWatcher :=
  if w.store.changed env.checksum job.name job.command = false then
    if w.store.get job.name = none then (.ok none, w.record env job)
    else (.ok none, w)
  else
    match alert env (w.changeOf env job) (w.record env job) with
    | (.error e, w') => (.error e, w')
    | (.ok (), w') => (.ok (some (w.changeOf env job)), w')

def check (env : Env) (jobs : List JobConfig) (w : ChecksumWatcher) :
    Except PyException (List CommandChange) × ChecksumWatcher :=
  loop (inspect env) Option.toList jobs w

/-- Any number of checks, with the jobs as they are then; what one of them raises does not
stop the next. -/
def checks (env : Env) (calls : List (List JobConfig)) (w : ChecksumWatcher) : ChecksumWatcher :=
  calls.foldl (fun w jobs => (w.check env jobs).2) w

/-! ## One job -/

/-- What the body of the loop does for a job: its digest is that of its command
afterwards, no other digest is changed, and a job whose digest was another is alerted. -/
structure Inspected (env : Env) (job : JobConfig) (w w' : ChecksumWatcher)
    (failed : Prop) : Prop where
  own : w'.store.get job.name = some (env.checksum job.command)
  others : ∀ name, name ≠ job.name → w'.store.get name = w.store.get name
  attempts : (w'.attempts = w.attempts ∧
      w.store.changed env.checksum job.name job.command = false ∧ ¬ failed) ∨
    ∃ sent, w'.attempts = w.attempts ++ [⟨w.changeOf env job, message (w.changeOf env job), sent⟩] ∧
      w.store.changed env.checksum job.name job.command = true ∧ (failed ↔ sent = false)

/-- The cases of the body. -/
theorem inspect_cases (env : Env) (job : JobConfig) (w : ChecksumWatcher) :
    (w.store.get job.name = some (env.checksum job.command) ∧
        w.inspect env job = (.ok none, w)) ∨
      (w.store.get job.name = none ∧ w.inspect env job = (.ok none, w.record env job)) ∨
      (w.store.changed env.checksum job.name job.command = true ∧
        ((∃ e, w.inspect env job =
            (.error e, (w.record env job).attempt (w.changeOf env job) false)) ∨
          w.inspect env job = (.ok (some (w.changeOf env job)),
            (w.record env job).attempt (w.changeOf env job) true))) := by
  unfold inspect
  split
  · rename_i same
    split
    · rename_i unknown
      exact .inr (.inl ⟨unknown, rfl⟩)
    · rename_i known
      obtain ⟨stored, stored_eq⟩ := Option.ne_none_iff_exists'.mp known
      refine .inl ⟨?_, rfl⟩
      by_contra ne
      have differs : w.store.changed env.checksum job.name job.command = true :=
        ChecksumStore.changed_iff.mpr ⟨stored, stored_eq, fun eq => ne (eq ▸ stored_eq)⟩
      rw [same] at differs
      cases differs
  · rename_i differs
    refine .inr (.inr ⟨Bool.not_eq_false _ |>.mp differs, ?_⟩)
    unfold alert
    split
    · rename_i e w' ended
      split at ended
      · cases ended
        exact .inl ⟨e, rfl⟩
      · cases ended
    · rename_i w' ended
      split at ended
      · cases ended
      · cases ended
        exact .inr rfl

theorem inspect_spec (env : Env) (job : JobConfig) (w : ChecksumWatcher) :
    Inspected env job w (w.inspect env job).2 (∃ e, (w.inspect env job).1 = .error e) := by
  have others : ∀ name, name ≠ job.name → (w.record env job).store.get name = w.store.get name :=
    fun _ ne => ChecksumStore.get_record_of_ne ne
  rcases inspect_cases env job w with ⟨same, ended⟩ | ⟨unknown, ended⟩ |
    ⟨differs, ⟨e, ended⟩ | ended⟩
  · rw [ended]
    exact ⟨same, fun _ _ => rfl, .inl ⟨rfl, by simp [ChecksumStore.changed, same], by simp⟩⟩
  · rw [ended]
    exact ⟨ChecksumStore.get_record_self, others,
      .inl ⟨rfl, by simp [ChecksumStore.changed, unknown], by simp⟩⟩
  · rw [ended]
    exact ⟨ChecksumStore.get_record_self, others, .inr ⟨false, rfl, differs, by simp⟩⟩
  · rw [ended]
    exact ⟨ChecksumStore.get_record_self, others, .inr ⟨true, rfl, differs, by simp⟩⟩

/-! ## Checks -/

/-- The calls of `send` made in a check that comes after these. -/
def attemptsOf (env : Env) (store : ChecksumStore) (before : List (List JobConfig))
    (jobs : List JobConfig) : List Attempt :=
  (checks env (before ++ [jobs]) { store }).attempts.drop
    (checks env before { store }).attempts.length

def Lists (jobName : String) (jobs : List JobConfig) : Prop := ∃ job ∈ jobs, job.name = jobName

/-- The job's command in the check. -/
def HasCommand (jobName command : String) (jobs : List JobConfig) : Prop :=
  Lists jobName jobs ∧ ∀ job ∈ jobs, job.name = jobName → job.command = command

/-- **No alert is lost**: one that failed is tried again at the next check that lists the
job, when its command is still the same; one that was sent is not tried again before the
command has changed once more. -/
structure NoneLost (env : Env) (store : ChecksumStore) (calls : List (List JobConfig)) : Prop where
  retried : ∀ before call between later after,
    calls = before ++ call :: (between ++ later :: after) →
    ∀ attempt ∈ attemptsOf env store before call, attempt.sent = false →
    (∀ jobs ∈ between, ¬ Lists attempt.change.jobName jobs) →
    HasCommand attempt.change.jobName attempt.change.command later →
    ∃ again ∈ attemptsOf env store (before ++ call :: between) later,
      again.change.jobName = attempt.change.jobName ∧
        again.change.command = attempt.change.command
  once : ∀ before first between again after,
    (checks env calls { store }).attempts = before ++ first :: (between ++ again :: after) →
    first.sent = true → again.change.jobName = first.change.jobName →
    again.change.command = first.change.command →
    ∃ other ∈ between, other.change.jobName = first.change.jobName ∧
      other.change.command ≠ first.change.command

/-- After every alert that failed, the job's command has changed again at the next check
that lists the job. -/
def ChangedAgain (env : Env) (store : ChecksumStore) (calls : List (List JobConfig)) : Prop :=
  ∀ before call between later after, calls = before ++ call :: (between ++ later :: after) →
    ∀ attempt ∈ attemptsOf env store before call, attempt.sent = false →
    (∀ jobs ∈ between, ¬ Lists attempt.change.jobName jobs) →
    Lists attempt.change.jobName later →
    ∃ job ∈ later, job.name = attempt.change.jobName ∧ job.command ≠ attempt.change.command

/-- The attempts for a job. -/
def attemptsFor (jobName : String) (attempts : List Attempt) : List Attempt :=
  attempts.filter fun attempt => attempt.change.jobName = jobName

/-- The digest of a job that has been alerted is that of its last alert, and every alert
for it was for another digest than the one before. -/
structure Tracks (env : Env) (w : ChecksumWatcher) : Prop where
  digest : ∀ jobName, ∀ last ∈ (attemptsFor jobName w.attempts).getLast?,
    w.store.get jobName = some (env.checksum last.change.command)
  changes : ∀ before attempt after, w.attempts = before ++ attempt :: after →
    ∀ last ∈ (attemptsFor attempt.change.jobName before).getLast?,
      env.checksum last.change.command ≠ env.checksum attempt.change.command

variable {env : Env}

theorem attemptsFor_append_single (jobName : String) (attempts : List Attempt) (last : Attempt) :
    attemptsFor jobName (attempts ++ [last]) =
      attemptsFor jobName attempts ++ if last.change.jobName = jobName then [last] else [] := by
  rw [attemptsFor, List.filter_append, List.filter_singleton, Bool.cond_decide]
  rfl

/-- **One job** keeps it. -/
theorem Tracks.inspect {w : ChecksumWatcher} (tracks : Tracks env w) (job : JobConfig) :
    Tracks env (w.inspect env job).2 := by
  obtain ⟨own, others, attempts⟩ := inspect_spec env job w
  rcases attempts with ⟨kept, same, -⟩ | ⟨sent, added, differs, -⟩
  · refine ⟨fun jobName last member => ?_, kept ▸ tracks.changes⟩
    rw [kept] at member
    have known := tracks.digest jobName last member
    by_cases here : jobName = job.name
    · subst here
      have current : env.checksum last.change.command = env.checksum job.command := by
        by_contra ne
        have changed := ChecksumStore.changed_iff.mpr ⟨_, known, ne⟩
        rw [same] at changed
        cases changed
      rw [own, current]
    · rw [others jobName here, known]
  · constructor
    · intro jobName last member
      rw [added, attemptsFor_append_single] at member
      by_cases here : jobName = job.name
      · subst here
        simp only [changeOf, if_true, List.getLast?_append, List.getLast?_singleton,
          Option.some_or, Option.mem_some_iff] at member
        rw [← member]
        exact own
      · have apart : (w.changeOf env job).jobName ≠ jobName := fun same => here same.symm
        rw [if_neg apart, List.append_nil] at member
        rw [others jobName here]
        exact tracks.digest jobName last member
    · rw [added]
      refine (forall_splits_append_single (P := fun before attempt =>
        ∀ last ∈ (attemptsFor attempt.change.jobName before).getLast?,
          env.checksum last.change.command ≠ env.checksum attempt.change.command)
        w.attempts _).mpr ⟨tracks.changes, fun last member => ?_⟩
      obtain ⟨stored, known, ne⟩ := ChecksumStore.changed_iff.mp differs
      have current := tracks.digest job.name last member
      rw [known] at current
      cases current
      exact ne

theorem Tracks.check {w : ChecksumWatcher} (tracks : Tracks env w) (jobs : List JobConfig) :
    Tracks env (w.check env jobs).2 :=
  loop_invariant (fun job _ _ kept => Tracks.inspect kept job) tracks

/-- **Any number of checks** keep it. -/
theorem tracks_checks (env : Env) (store : ChecksumStore) (calls : List (List JobConfig)) :
    Tracks env (checks env calls { store }) := by
  have run : ∀ {w : ChecksumWatcher}, Tracks env w → Tracks env (checks env calls w) := by
    induction calls with
    | nil => exact fun tracks => tracks
    | cons jobs rest ih => exact fun tracks => ih (tracks.check jobs)
  exact run ⟨by simp [attemptsFor], by simp⟩

/-- Between two alerts for one command of a job there is one for another. -/
theorem Tracks.other {w : ChecksumWatcher} (tracks : Tracks env w) {before between after : List Attempt}
    {first again : Attempt} (split : w.attempts = before ++ first :: (between ++ again :: after))
    (sameJob : again.change.jobName = first.change.jobName)
    (sameCommand : again.change.command = first.change.command) :
    ∃ other ∈ between, other.change.jobName = first.change.jobName ∧
      other.change.command ≠ first.change.command := by
  have regrouped : w.attempts = (before ++ first :: between) ++ again :: after := by
    rw [split, List.append_assoc, List.cons_append]
  have changes := tracks.changes _ again after regrouped
  have pieces : attemptsFor again.change.jobName (before ++ first :: between) =
      attemptsFor again.change.jobName (before ++ [first]) ++
        attemptsFor again.change.jobName between := by
    rw [attemptsFor, attemptsFor, attemptsFor, ← List.filter_append, List.append_assoc]
    rfl
  rw [pieces, attemptsFor_append_single, if_pos sameJob.symm, List.getLast?_append,
    List.getLast?_append, List.getLast?_singleton] at changes
  rcases ended : (attemptsFor again.change.jobName between).getLast? with _ | other
  · rw [ended] at changes
    exact absurd (congrArg env.checksum sameCommand.symm) (changes first (by simp))
  · rw [ended] at changes
    have member := List.mem_filter.mp (List.mem_of_getLast? ended)
    refine ⟨other, member.1, (of_decide_eq_true member.2).trans sameJob, fun same => ?_⟩
    exact changes other (by simp) (congrArg env.checksum (same.trans sameCommand.symm))

/-! ## What a check adds -/

/-- The alerts that a check adds, and the digests of those that failed. -/
theorem check_adds (env : Env) (jobs : List JobConfig) (w : ChecksumWatcher) :
    ∃ added, (w.check env jobs).2.attempts = w.attempts ++ added ∧
      ∀ attempt ∈ added, attempt.sent = false →
        (w.check env jobs).2.store.get attempt.change.jobName =
          some (env.checksum attempt.change.command) := by
  induction jobs generalizing w with
  | nil => exact ⟨[], (List.append_nil _).symm, by simp⟩
  | cons job rest ih =>
      obtain ⟨own, -, attempts⟩ := inspect_spec env job w
      rcases ended : w.inspect env job with ⟨e | given, w'⟩
      · rw [ended] at own attempts
        rw [check, loop_cons_of_error ended]
        rcases attempts with ⟨kept, -, -⟩ | ⟨sent, added, -, -⟩
        · exact ⟨[], kept.trans (List.append_nil _).symm, by simp⟩
        · refine ⟨_, added, fun attempt member _ => ?_⟩
          rw [List.mem_singleton.mp member]
          exact own
      · rw [ended] at attempts
        rw [check, loop_cons_of_ok ended]
        obtain ⟨later, grown, digests⟩ := ih w'
        rcases attempts with ⟨kept, -, -⟩ | ⟨sent, added, -, failed⟩
        · exact ⟨later, grown.trans (congrArg (· ++ later) kept), digests⟩
        · refine ⟨[⟨w.changeOf env job, message (w.changeOf env job), sent⟩] ++ later, ?_,
            fun attempt member unsent => ?_⟩
          · rw [← List.append_assoc, ← added]
            exact grown
          · rcases List.mem_cons.mp member with rfl | member
            · obtain ⟨e, impossible⟩ := failed.mpr unsent
              cases impossible
            · exact digests attempt member unsent

/-- A job whose command has the stored digest is left alone. -/
theorem check_quiet {w : ChecksumWatcher} {jobs : List JobConfig} {jobName digest : String}
    (known : w.store.get jobName = some digest)
    (same : ∀ job ∈ jobs, job.name = jobName → env.checksum job.command = digest) :
    (w.check env jobs).2.store.get jobName = some digest ∧
      attemptsFor jobName (w.check env jobs).2.attempts = attemptsFor jobName w.attempts := by
  refine loop_invariant (I := fun w' : ChecksumWatcher => w'.store.get jobName = some digest ∧
    attemptsFor jobName w'.attempts = attemptsFor jobName w.attempts)
    (fun job member w' kept => ?_) ⟨known, rfl⟩
  obtain ⟨own, others, attempts⟩ := inspect_spec env job w'
  by_cases here : job.name = jobName
  · subst here
    refine ⟨own.trans (congrArg some (same job member rfl)), ?_⟩
    rcases attempts with ⟨unadded, -, -⟩ | ⟨sent, -, differs, -⟩
    · rw [unadded, kept.2]
    · obtain ⟨stored, stored_eq, ne⟩ := ChecksumStore.changed_iff.mp differs
      rw [kept.1] at stored_eq
      cases stored_eq
      exact absurd (same job member rfl).symm ne
  · refine ⟨(others jobName fun eq => here eq.symm).trans kept.1, ?_⟩
    rcases attempts with ⟨unadded, -, -⟩ | ⟨sent, added, -, -⟩
    · rw [unadded, kept.2]
    · have apart : (w'.changeOf env job).jobName ≠ jobName := here
      rw [added, attemptsFor_append_single, if_neg apart, List.append_nil, kept.2]

theorem checks_append (calls calls' : List (List JobConfig)) (w : ChecksumWatcher) :
    checks env (calls ++ calls') w = checks env calls' (checks env calls w) :=
  List.foldl_append

variable (env) in
theorem attempts_append_single (store : ChecksumStore) (before : List (List JobConfig))
    (jobs : List JobConfig) :
    (checks env (before ++ [jobs]) { store }).attempts =
      (checks env before { store }).attempts ++ attemptsOf env store before jobs := by
  obtain ⟨added, grown, -⟩ := check_adds env jobs (checks env before { store })
  have ended : (checks env (before ++ [jobs]) { store }).attempts =
      (checks env before { store }).attempts ++ added := by
    rw [checks_append]
    exact grown
  rw [attemptsOf, ended, List.drop_left]

/-- An alert that failed has left its digest in the store. -/
theorem digest_of_failed {store : ChecksumStore} {before : List (List JobConfig)}
    {call : List JobConfig} {attempt : Attempt} (made : attempt ∈ attemptsOf env store before call)
    (failed : attempt.sent = false) :
    (checks env (before ++ [call]) { store }).store.get attempt.change.jobName =
      some (env.checksum attempt.change.command) := by
  obtain ⟨added, grown, digests⟩ := check_adds env call (checks env before { store })
  have split := attempts_append_single env store before call
  rw [checks_append] at split ⊢
  rw [List.append_cancel_left (split.symm.trans grown)] at made
  exact digests attempt made failed

/-- ... and while the job's command stays, nothing is tried for it. -/
theorem not_tried_again {store : ChecksumStore} {before between : List (List JobConfig)}
    {call later : List JobConfig} {attempt : Attempt}
    (made : attempt ∈ attemptsOf env store before call) (failed : attempt.sent = false)
    (unlisted : ∀ jobs ∈ between, ¬ Lists attempt.change.jobName jobs)
    (same : ∀ job ∈ later, job.name = attempt.change.jobName → job.command = attempt.change.command) :
    ∀ again ∈ attemptsOf env store (before ++ call :: between) later,
      again.change.jobName ≠ attempt.change.jobName := by
  have kept : ∀ w : ChecksumWatcher,
      w.store.get attempt.change.jobName = some (env.checksum attempt.change.command) →
      (checks env between w).store.get attempt.change.jobName =
        some (env.checksum attempt.change.command) := by
    induction between with
    | nil => exact fun w known => known
    | cons jobs rest ih =>
        refine fun w known => ih (fun jobs' member => unlisted jobs' (List.mem_cons_of_mem _ member))
          _ (check_quiet known fun job member own => ?_).1
        exact absurd ⟨job, member, own⟩ (unlisted jobs List.mem_cons_self)
  have known := kept _ (digest_of_failed made failed)
  rw [← checks_append, List.append_assoc, List.singleton_append] at known
  have quiet := (check_quiet known fun job member own =>
    congrArg env.checksum (same job member own)).2
  have grown := attempts_append_single env store (before ++ call :: between) later
  rw [checks_append] at grown
  change (check env later _).2.attempts = _ at grown
  rw [grown, attemptsFor, List.filter_append] at quiet
  intro again member own
  have none_ := List.filter_eq_nil_iff.mp (List.append_right_eq_self.mp quiet) again member
  exact none_ (by simpa using own)

/-- **When no alert is lost**, in any number of checks: exactly when after every alert that
failed the command has changed again. -/
theorem retried_iff (env : Env) (store : ChecksumStore) (calls : List (List JobConfig)) :
    NoneLost env store calls ↔ ChangedAgain env store calls := by
  constructor
  · intro law before call between later after split attempt made failed unlisted listed
    by_contra none_
    have same : ∀ job ∈ later, job.name = attempt.change.jobName →
        job.command = attempt.change.command := by
      intro job member own
      by_contra ne
      exact none_ ⟨job, member, own, ne⟩
    obtain ⟨again, tried, sameJob, -⟩ := law.retried before call between later after split attempt
      made failed unlisted ⟨listed, same⟩
    exact not_tried_again made failed unlisted same again tried sameJob
  · intro changed
    constructor
    · intro before call between later after split attempt made failed unlisted present
      obtain ⟨job, member, own, ne⟩ :=
        changed before call between later after split attempt made failed unlisted present.1
      exact absurd (present.2 job member own) ne
    · intro before first between again after split _ sameJob sameCommand
      exact (tracks_checks env store calls).other split sameJob sameCommand

/-! ## A job and the digests of its commands -/

def backup (command : String) : JobConfig where
  name := "backup"
  command := command
  schedule := "0 3 * * *"

def backupDigest (command : String) : String :=
  if command = "tar -cf /srv/backup.tar /data" then "cd67116d7a3e82ea"
  else if command = "tar -czf /srv/backup.tgz /data" then "18cfe8bf8344115c"
  else "c7c5f89d3c95fcc3"

end ChecksumWatcher

end Cronwatch.Alerts
