/-
# Jobs.Lock -- the pid file of a job and the processes that race for it

`acquire` and `release` are the calls as one process makes them, with the text of the
lock file (`none` when there is no file) as explicit state and `os.kill(pid, 0)` as a
parameter.  The file is taken to be one that can be written: that its directory exists, and
that the name of the job has no slash in it (`Jobs.LockFile` has the calls that can fail).

`system` interleaves the same calls of any number of processes, one file-system step
at a time: read the file, probe the pid found there, unlink a stale file, write the
own pid.  `exec_acquire` says that the steps of one process, taken without a pause,
are `acquire`.

* `acquire_races`: two processes that both read before either writes both hold the lock.
* `mutual_exclusion`: they cannot, in a run where the check made by `acquire` still
  holds at every unlink and at every write.
-/
import Cronwatch.Runtime.Python
import Cronwatch.Runtime.Text
import Cronwatch.Theory.Transition
import Mathlib.Logic.Function.Basic

namespace Cronwatch.Jobs

set_option autoImplicit false

open Cronwatch.Theory Cronwatch.Runtime

structure JobLock where
  jobName : String
  held : Bool := false
deriving DecidableEq

namespace JobLock

/-- How `os.kill(pid, 0)` ends. -/
inductive KillOutcome where
  | returned
  | processLookupError
  | permissionError
  | raised (e : PyException)
deriving DecidableEq

/-- What the calling process asks of the operating system. -/
structure OS where
  getpid : Nat
  kill : Int → KillOutcome

def readPid (file : Option String) : Option Int :=
  file.bind fun text => intOf (String.ofList (strip text.toList))

def pidRunning : KillOutcome → Except PyException Bool
  | .returned => .ok true
  | .processLookupError | .permissionError => .ok false
  | .raised e => .error e

def alreadyRunning (jobName : String) (pid : Int) : PyException :=
  .lockAcquisitionError s!"Job '{jobName}' is already running (pid {pid})"

/-- `write_text(str(os.getpid()))` and `self._held = True`. -/
def writePid (os : OS) (lock : JobLock) : Except PyException Unit × JobLock × Option String :=
  (.ok (), { lock with held := true }, some (strOf os.getpid))

def acquire (os : OS) (lock : JobLock) (file : Option String) :
    Except PyException Unit × JobLock × Option String :=
  match readPid file with
  | none => writePid os lock
  | some existingPid =>
      match pidRunning (os.kill existingPid) with
      | .error e => (.error e, lock, file)
      | .ok true => (.error (alreadyRunning lock.jobName existingPid), lock, file)
      | .ok false => writePid os lock

def release (lock : JobLock) (file : Option String) : JobLock × Option String :=
  if lock.held then ({ lock with held := false }, none) else (lock, file)

/-- A process reads back the pid it wrote. -/
@[simp] theorem readPid_strOf (p : Nat) : readPid (some (strOf p)) = some (p : Int) := by
  rw [readPid, Option.bind_some, strip_strOf, String.ofList_toList]
  exact intOf_strOf p

/-! ## Processes that race for the file -/

/-- Where a process stands inside `acquire`: the step it takes next. -/
inductive Point where
  | outside
  | probing (pid : Int)
  | unlinking
  | writing
deriving DecidableEq

inductive Process where
  | dead
  | alive (point : Point) (held : Bool)
deriving DecidableEq

def Process.isAlive : Process → Bool
  | .dead => false
  | .alive _ _ => true

def Process.isHeld : Process → Bool
  | .dead => false
  | .alive _ held => held

/-- The lock file of one job and every process, by pid. -/
structure State where
  file : Option String
  process : Nat → Process

inductive Action where
  | read (p : Nat)
  | probe (p : Nat)
  | unlink (p : Nat)
  | write (p : Nat)
  | release (p : Nat)
  | crash (p : Nat)
  | start (p : Nat)
deriving DecidableEq

def Action.pid : Action → Nat
  | .read p | .probe p | .unlink p | .write p | .release p | .crash p | .start p => p

namespace State

def put (s : State) (p : Nat) (process : Process) : State :=
  { s with process := Function.update s.process p process }

/-- Whether a number is the pid of a live process. -/
def live (s : State) : Int → Bool
  | .ofNat p => (s.process p).isAlive
  | .negSucc _ => false

/-- A probe finds every live process; `others` is its answer for any other number. -/
def kill (others : Int → KillOutcome) (s : State) (pid : Int) : KillOutcome :=
  if s.live pid then .returned else others pid

/-- The lock file names a live process. -/
def claimed (s : State) : Bool :=
  match readPid s.file with
  | some pid => s.live pid
  | none => false

end State

/-- One atomic step; `none` where the process cannot take it. -/
def step (others : Int → KillOutcome) (s : State) : Action → Option State
  | .read p =>
      match s.process p with
      | .alive .outside held =>
          match readPid s.file with
          | none => some (s.put p (.alive .writing held))
          | some pid => some (s.put p (.alive (.probing pid) held))
      | _ => none
  | .probe p =>
      match s.process p with
      | .alive (.probing pid) held =>
          match pidRunning (s.kill others pid) with
          | .ok false => some (s.put p (.alive .unlinking held))
          -- `acquire` raises
          | _ => some (s.put p (.alive .outside held))
      | _ => none
  | .unlink p =>
      match s.process p with
      | .alive .unlinking held => some ({ s with file := none }.put p (.alive .writing held))
      | _ => none
  | .write p =>
      match s.process p with
      | .alive .writing _ => some ({ s with file := some (strOf p) }.put p (.alive .outside true))
      | _ => none
  | .release p =>
      match s.process p with
      | .alive .outside true => some ({ s with file := none }.put p (.alive .outside false))
      | .alive .outside false => some s
      | _ => none
  | .crash p =>
      match s.process p with
      | .alive _ _ => some (s.put p .dead)
      | .dead => none
  | .start p =>
      match s.process p with
      | .dead => some (s.put p (.alive .outside false))
      | .alive _ _ => none

/-- Any number of processes, none of them holding the lock, and any lock file. -/
def system (others : Int → KillOutcome) : TransitionSystem State Action where
  init := fun s => ∀ p, s.process p = .dead ∨ s.process p = .alive .outside false
  step := step others

/-- No two live processes hold the lock. -/
def Exclusive (s : State) : Prop :=
  ∀ p q, (s.process p).isHeld → (s.process q).isHeld → p = q

/-! ## The steps of one process are `acquire` and `release` -/

/-- The operating system as the process `p` finds it. -/
def State.os (others : Int → KillOutcome) (s : State) (p : Nat) : OS where
  getpid := p
  kill := s.kill others

@[simp] theorem put_process_self (s : State) (p : Nat) (process : Process) :
    (s.put p process).process p = process := by
  simp [State.put]

@[simp] theorem put_put (s : State) (p : Nat) (before after : Process) :
    (s.put p before).put p after = s.put p after := by
  simp [State.put]

@[simp] theorem put_file_put (s : State) (file : Option String) (p : Nat)
    (before after : Process) :
    { s.put p before with file := file }.put p after = { s with file := file }.put p after := by
  simp [State.put]

/-- Moving a live process to another point changes no answer to a probe. -/
theorem live_put_alive {s : State} {p : Nat} (alive : (s.process p).isAlive) (point : Point)
    (held : Bool) (pid : Int) : (s.put p (.alive point held)).live pid = s.live pid := by
  cases pid with
  | ofNat q =>
      by_cases same : q = p
      · subst same
        simpa [State.live, State.put, Process.isAlive] using alive.symm
      · simp [State.live, State.put, same]
  | negSucc q => rfl

theorem kill_put_alive (others : Int → KillOutcome) {s : State} {p : Nat}
    (alive : (s.process p).isAlive) (point : Point) (held : Bool) :
    (s.put p (.alive point held)).kill others = s.kill others := by
  funext pid
  rw [State.kill, State.kill, live_put_alive alive]

/-- **Steps without a pause are `acquire`**: the steps of `p` alone leave the file and
the lock of `p` as the call does, and every other process as it was. -/
theorem exec_acquire (others : Int → KillOutcome) (s : State) (p : Nat) (lock : JobLock)
    (outside : s.process p = .alive .outside lock.held) :
    ∃ actions : List Action, (∀ a ∈ actions, a.pid = p) ∧
      (system others).exec actions s =
        some ({ s with file := (acquire (s.os others p) lock s.file).2.2 }.put p
          (.alive .outside (acquire (s.os others p) lock s.file).2.1.held)) := by
  have alive : (s.process p).isAlive := by rw [outside]; rfl
  unfold acquire
  cases found : readPid s.file with
  | none =>
      refine ⟨[.read p, .write p], by simp [Action.pid], ?_⟩
      simp [TransitionSystem.exec, system, step, outside, found, writePid, State.os]
  | some pid =>
      cases answer : pidRunning (s.kill others pid) with
      | error e =>
          refine ⟨[.read p, .probe p], by simp [Action.pid], ?_⟩
          simp [TransitionSystem.exec, system, step, outside, found, kill_put_alive others alive,
            answer, State.os]
      | ok running =>
          cases running with
          | true =>
              refine ⟨[.read p, .probe p], by simp [Action.pid], ?_⟩
              simp [TransitionSystem.exec, system, step, outside, found,
                kill_put_alive others alive, answer, State.os]
          | false =>
              refine ⟨[.read p, .probe p, .unlink p, .write p], by simp [Action.pid], ?_⟩
              simp [TransitionSystem.exec, system, step, outside, found,
                kill_put_alive others alive, answer, writePid, State.os]

theorem exec_release (others : Int → KillOutcome) (s : State) (p : Nat) (lock : JobLock)
    (outside : s.process p = .alive .outside lock.held) :
    (system others).exec [.release p] s =
      some ({ s with file := (release lock s.file).2 }.put p
        (.alive .outside (release lock s.file).1.held)) := by
  cases held : lock.held with
  | true =>
      rw [held] at outside
      simp [TransitionSystem.exec, system, step, outside, release, held]
  | false =>
      rw [held] at outside
      have same : s.put p (.alive .outside false) = s := by
        rw [← outside, State.put, Function.update_eq_self]
      simp [TransitionSystem.exec, system, step, outside, release, held, same]

/-! ## Mutual exclusion -/

/-- The check made by `acquire` still holds when the file is unlinked or written: it
does not name a live process. -/
def CheckHolds (s : State) : Action → Prop
  | .unlink _ | .write _ => s.claimed = false
  | _ => True

instance (s : State) : ∀ a, Decidable (CheckHolds s a)
  | .unlink _ | .write _ => inferInstanceAs (Decidable (s.claimed = false))
  | .read _ | .probe _ | .release _ | .crash _ | .start _ => .isTrue trivial

/-- The lock file names every live process that holds the lock. -/
def Names (s : State) : Prop :=
  ∀ p, (s.process p).isHeld → readPid s.file = some (p : Int)

theorem Names.exclusive {s : State} (names : Names s) : Exclusive s := by
  intro p q heldP heldQ
  have same : some (p : Int) = some (q : Int) := (names p heldP).symm.trans (names q heldQ)
  exact Int.ofNat.inj (Option.some.inj same)

theorem Process.isAlive_of_isHeld {process : Process} (held : process.isHeld) :
    process.isAlive := by
  cases process with
  | dead => cases held
  | alive point held => rfl

/-- A file that names no live process names no holder, so there is none. -/
theorem Names.not_held {s : State} (names : Names s) (unclaimed : s.claimed = false) (p : Nat) :
    ¬ (s.process p).isHeld := by
  intro held
  have alive : s.live (p : Int) = true := Process.isAlive_of_isHeld held
  simp only [State.claimed, names p held] at unclaimed
  rw [alive] at unclaimed
  cases unclaimed

/-- Replacing one process and the file keeps the invariant when the new process, if it
holds the lock, and every other holder are named by the new file. -/
theorem names_put {s : State} (file : Option String) {p : Nat} {process : Process}
    (own : process.isHeld → readPid file = some (p : Int))
    (rest : ∀ q, q ≠ p → (s.process q).isHeld → readPid file = some (q : Int)) :
    Names ({ s with file := file }.put p process) := by
  intro q held
  by_cases same : q = p
  · subst same
    rw [put_process_self] at held
    exact own held
  · simp only [State.put, Function.update_of_ne same] at held
    exact rest q same held

/-- **What a step can do** to the file and to who holds the lock. -/
theorem step_cases {others : Int → KillOutcome} {s s' : State} {a : Action}
    (taken : step others s a = some s') : match a with
      | .unlink p => ∃ process, (process.isHeld → (s.process p).isHeld) ∧
          s' = { s with file := none }.put p process
      | .write p => s' = { s with file := some (strOf p) }.put p (.alive .outside true)
      | .release p => s' = s ∨
          ((s.process p).isHeld ∧ s' = { s with file := none }.put p (.alive .outside false))
      | .read p | .probe p | .crash p | .start p =>
          ∃ process, (process.isHeld → (s.process p).isHeld) ∧ s' = s.put p process := by
  cases a with
  | read p =>
      simp only [step] at taken
      split at taken
      · rename_i held at_
        split at taken <;> cases taken <;> exact ⟨_, by rw [at_]; exact id, rfl⟩
      · cases taken
  | probe p =>
      simp only [step] at taken
      split at taken
      · rename_i pid held at_
        split at taken <;> cases taken <;> exact ⟨_, by rw [at_]; exact id, rfl⟩
      · cases taken
  | unlink p =>
      simp only [step] at taken
      split at taken
      · rename_i held at_
        cases taken
        exact ⟨_, by rw [at_]; exact id, rfl⟩
      · cases taken
  | write p =>
      simp only [step] at taken
      split at taken
      · cases taken
        rfl
      · cases taken
  | release p =>
      simp only [step] at taken
      split at taken
      · rename_i at_
        cases taken
        exact .inr ⟨by rw [at_]; rfl, rfl⟩
      · cases taken
        exact .inl rfl
      · cases taken
  | crash p =>
      simp only [step] at taken
      split at taken
      · cases taken
        refine ⟨.dead, ?_, rfl⟩
        intro impossible
        cases impossible
      · cases taken
  | start p =>
      simp only [step] at taken
      split at taken
      · cases taken
        refine ⟨.alive .outside false, ?_, rfl⟩
        intro impossible
        cases impossible
      · cases taken

/-- **One step** whose check still holds keeps the invariant. -/
theorem names_step (others : Int → KillOutcome) (s : State) (a : Action) (s' : State)
    (names : Names s) (check : CheckHolds s a) (taken : step others s a = some s') : Names s' := by
  have keep : ∀ p, (∃ process, (process.isHeld → (s.process p).isHeld) ∧ s' = s.put p process) →
      Names s' := by
    rintro p ⟨process, same, rfl⟩
    exact names_put s.file (fun held => names p (same held)) fun q _ held => names q held
  cases a with
  | read p => exact keep p (step_cases taken)
  | probe p => exact keep p (step_cases taken)
  | unlink p =>
      have free := names.not_held check
      obtain ⟨process, same, rfl⟩ := step_cases taken
      exact names_put none (fun held => absurd (same held) (free p)) fun q _ held =>
        absurd held (free q)
  | write p =>
      have free := names.not_held check
      have wrote : s' = _ := step_cases taken
      subst wrote
      exact names_put _ (fun _ => readPid_strOf p) fun q _ held => absurd held (free q)
  | release p =>
      obtain rfl | ⟨holds, rfl⟩ := step_cases taken
      · exact names
      · apply names_put none (fun impossible => by cases impossible)
        intro q other held
        exact absurd (names.exclusive q p held holds) other
  | crash p => exact keep p (step_cases taken)
  | start p => exact keep p (step_cases taken)

/-- **Mutual exclusion**, in every run whose unlinks and writes still meet the check. -/
theorem mutual_exclusion (others : Int → KillOutcome) {s : State}
    (run : (system others).RunsTo CheckHolds s) : Exclusive s := by
  have named : Names s := by
    refine run.invariant (fun s start p held => ?_) (names_step others)
    rcases start p with dead | idle
    · rw [dead] at held
      cases held
    · rw [idle] at held
      cases held
  exact named.exclusive

/-- A write over the pid of another holder breaks exclusion at once. -/
theorem write_over_holder (others : Int → KillOutcome) {s s' : State} {p q : Nat} (ne : q ≠ p)
    (held : (s.process q).isHeld) (taken : step others s (.write p) = some s') :
    ¬ Exclusive s' := by
  have wrote : s' = _ := step_cases taken
  subst wrote
  intro exclusive
  refine ne (exclusive q p ?_ ?_)
  · simpa [State.put, ne] using held
  · simp [State.put, Process.isHeld]

/-- Every process runs and none has called `acquire`. -/
def nobody : State where
  file := none
  process := fun _ => .alive .outside false

/-- A number that is not a live process is unknown to the system. -/
def exactProbe : Int → KillOutcome := fun _ => .processLookupError

theorem nobody_init : (system exactProbe).init nobody := fun _ => .inr rfl

/-- Both processes find no lock file, and then both write it. -/
theorem acquire_races : ¬ ∀ s, (system exactProbe).Reachable s → Exclusive s := by
  intro exclusive
  have both : ((system exactProbe).exec [.read 1, .read 2, .write 1, .write 2] nobody).map
      (fun s => ((s.process 1).isHeld, (s.process 2).isHeld)) = some (true, true) := by
    decide +kernel
  obtain ⟨s, executed, held⟩ := Option.map_eq_some_iff.mp both
  obtain ⟨held₁, held₂⟩ := Prod.mk.inj held
  have same : 1 = 2 :=
    exclusive s (TransitionSystem.reachable_of_exec nobody_init executed) 1 2 held₁ held₂
  cases same

/-- The holder crashes and the waiting process recovers the stale lock. -/
theorem stale_lock_excludes :
    ∃ s, (system exactProbe).exec [.read 1, .write 1, .read 2, .probe 2, .crash 1, .read 2,
      .probe 2, .unlink 2, .write 2] nobody = some s ∧ (s.process 2).isHeld ∧ Exclusive s := by
  have recovered : ((system exactProbe).exec [.read 1, .write 1, .read 2, .probe 2, .crash 1,
      .read 2, .probe 2, .unlink 2, .write 2] nobody).map (fun s => (s.process 2).isHeld) =
        some true := by
    decide +kernel
  obtain ⟨s, executed, held⟩ := Option.map_eq_some_iff.mp recovered
  exact ⟨s, executed, held,
    mutual_exclusion exactProbe (.exec (.init nobody_init) (by decide +kernel) executed)⟩

end JobLock

end Cronwatch.Jobs
