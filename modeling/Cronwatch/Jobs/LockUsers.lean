/-
# Jobs.LockUsers -- one lock file and processes of several users

The calls of `Jobs.Lock` as steps that nothing interrupts, made by processes each of which
belongs to a user.  `os.kill(pid, 0)` finds a live process of the same user, and answers
`PermissionError` for one of another user, which `_pid_running` takes for a dead one.

`Owned` is what a lock is for.  It holds in every run in which nobody acquires the lock
while a process of another user has it (`owned_of_run`), and an `acquire` that is made then
breaks it (`acquire_takes_over`).
-/
import Cronwatch.Jobs.Lock

namespace Cronwatch.Jobs.LockUsers

set_option autoImplicit false

open Cronwatch.Theory Cronwatch.Runtime

universe u

/-- A pid is used for one process; it is not used again. -/
inductive Life where
  | unborn
  | live (lock : JobLock)
  | gone

namespace Life

def isLive : Life → Bool
  | .live _ => true
  | .unborn | .gone => false

/-- `is_held` of a live process. -/
def isHeld : Life → Bool
  | .live lock => lock.held
  | .unborn | .gone => false

end Life

/-- The lock file of a job, the process that has written it, and every process by pid. -/
structure State where
  file : Option String
  writer : Option Nat
  process : Nat → Life

inductive Action where
  | acquire (p : Nat)
  | release (p : Nat)
  | crash (p : Nat)
  /-- A new process makes its `JobLock`. -/
  | start (p : Nat) (jobName : String)

namespace State

def put (s : State) (p : Nat) (life : Life) : State :=
  { s with process := Function.update s.process p life }

@[simp] theorem put_process_self (s : State) (p : Nat) (life : Life) :
    (s.put p life).process p = life :=
  Function.update_self ..

theorem put_process_of_ne (s : State) {p q : Nat} (ne : q ≠ p) (life : Life) :
    (s.put p life).process q = s.process q :=
  Function.update_of_ne ne ..

end State

variable {υ : Type u} [DecidableEq υ] (user : Nat → υ) (others : Int → JobLock.KillOutcome)

/-- What a process of a user is answered; `others` is the answer for a number that no
process has. -/
def kill (s : State) (asking : υ) : Int → JobLock.KillOutcome
  | .ofNat q =>
      if (s.process q).isLive then
        if user q = asking then .returned else .permissionError
      else .processLookupError
  | .negSucc n => others (.negSucc n)

/-- The operating system as the process `p` finds it. -/
def os (s : State) (p : Nat) : JobLock.OS where
  getpid := p
  kill := kill user others s (user p)

/-- One call, or one event in the life of a process; `none` where it cannot take place. -/
def step (s : State) : Action → Option State
  | .acquire p =>
      match s.process p with
      | .live lock =>
          match JobLock.acquire (os user others s p) lock s.file with
          | (.ok (), lock, file) => some ({ s with file, writer := some p }.put p (.live lock))
          | (.error _, lock, file) => some ({ s with file }.put p (.live lock))
      | _ => none
  | .release p =>
      match s.process p with
      | .live lock =>
          let (lock', file) := JobLock.release lock s.file
          let writer := if lock.held then none else s.writer
          some ({ s with file, writer }.put p (.live lock'))
      | _ => none
  | .crash p =>
      match s.process p with
      | .live _ => some (s.put p .gone)
      | _ => none
  | .start p jobName =>
      match s.process p with
      | .unborn => some (s.put p (.live { jobName }))
      | _ => none

/-- Any processes, none of which holds the lock, and any lock file. -/
def system : TransitionSystem State Action where
  init := fun s => ∀ p, (s.process p).isHeld = false
  step := step user others

/-- One live process at most holds the lock, its pid is in the file, and a release removes
no file that another live process has written. -/
structure Owned (s : State) : Prop where
  exclusive : ∀ p q, (s.process p).isHeld → (s.process q).isHeld → p = q
  named : ∀ p, (s.process p).isHeld → s.file = some (strOf p)
  released : ∀ p lock, s.process p = .live lock → (JobLock.release lock s.file).2 ≠ s.file →
    ∀ q, s.writer = some q → (s.process q).isLive → q = p

/-- Nobody acquires the lock while a process of another user has it. -/
def SameUser (s : State) : Action → Prop
  | .acquire p => ∀ q, (s.process q).isHeld → user q = user p
  | .release _ | .crash _ | .start _ _ => True

/-- The holder has written the file, and its pid is there. -/
structure Written (s : State) : Prop where
  file : ∀ p, (s.process p).isHeld → s.file = some (strOf p)
  writer : ∀ p, (s.process p).isHeld → s.writer = some p

theorem isLive_of_isHeld {life : Life} (held : life.isHeld) : life.isLive := by
  cases life with
  | live lock => rfl
  | unborn => cases held
  | gone => cases held

theorem Written.exclusive {s : State} (written : Written s) {p q : Nat}
    (heldP : (s.process p).isHeld) (heldQ : (s.process q).isHeld) : p = q :=
  Option.some.inj ((written.writer p heldP).symm.trans (written.writer q heldQ))

theorem Written.owned {s : State} (written : Written s) : Owned s where
  exclusive := fun _ _ => written.exclusive
  named := written.file
  released := by
    intro p lock at_ removed q wrote _
    rw [JobLock.release] at removed
    split at removed
    · rename_i held
      have holds : (s.process p).isHeld := by
        rw [at_]
        exact held
      have own := written.writer p holds
      rw [wrote] at own
      exact Option.some.inj own
    · exact absurd rfl removed

/-- A process that changes keeps what is written, where it holds the lock only if it did. -/
theorem Written.put {s : State} (written : Written s) {p : Nat} {life : Life}
    (only : life.isHeld → (s.process p).isHeld) : Written (s.put p life) := by
  have before : ∀ q, ((s.put p life).process q).isHeld → (s.process q).isHeld := by
    intro q held
    by_cases here : q = p
    · subst here
      rw [State.put_process_self] at held
      exact only held
    · rwa [State.put_process_of_ne s here] at held
  exact ⟨fun q held => written.file q (before q held),
    fun q held => written.writer q (before q held)⟩

/-- When the holder lets go, nobody holds the lock, and nothing is asked of the file. -/
theorem Written.letGo {s : State} (written : Written s) {p : Nat} (holder : (s.process p).isHeld)
    {life : Life} (letsGo : life.isHeld = false) (file : Option String) (writer : Option Nat) :
    Written ({ s with file, writer }.put p life) := by
  have free : ∀ q, ¬ ((({ s with file, writer } : State).put p life).process q).isHeld := by
    intro q still
    by_cases here : q = p
    · subst here
      rw [State.put_process_self, letsGo] at still
      cases still
    · rw [State.put_process_of_ne _ here] at still
      exact here (written.exclusive still holder)
  exact ⟨fun q still => absurd still (free q), fun q still => absurd still (free q)⟩

/-- Where nobody holds the lock, anybody may write the file. -/
theorem written_of_free {s : State} (free : ∀ q, ¬ (s.process q).isHeld) (p : Nat)
    (lock : JobLock) :
    Written ({ s with file := some (strOf p), writer := some p }.put p (.live lock)) := by
  have holder : ∀ q, (({ s with file := some (strOf p), writer := some p } : State).put p
      (.live lock)).process q |>.isHeld → q = p := by
    intro q held
    by_contra other
    rw [State.put_process_of_ne _ other] at held
    exact free q held
  exact ⟨fun q held => by rw [holder q held]; rfl, fun q held => by rw [holder q held]; rfl⟩

variable {user others}

/-- **What `acquire` finds** while the lock is held by a process of the same user: it
raises, and leaves the file and the lock as they are. -/
theorem acquire_of_held {s : State} (written : Written s) {p q : Nat}
    (held : (s.process q).isHeld) (same : user q = user p) (lock : JobLock) :
    JobLock.acquire (os user others s p) lock s.file =
      (.error (JobLock.alreadyRunning lock.jobName q), lock, s.file) := by
  have answer : kill user others s (user p) (q : Int) = .returned := by
    show (if (s.process q).isLive then _ else _) = _
    rw [if_pos (isLive_of_isHeld held), if_pos same]
  have found : JobLock.readPid s.file = some (q : Int) := by
    rw [written.file q held, JobLock.readPid_strOf]
  simp only [JobLock.acquire, found, os, answer, JobLock.pidRunning]

/-- What `acquire` does to the file and to the lock. -/
theorem acquire_cases (os : JobLock.OS) (lock : JobLock) (file : Option String) :
    (∃ e, JobLock.acquire os lock file = (.error e, lock, file)) ∨
      JobLock.acquire os lock file = JobLock.writePid os lock := by
  unfold JobLock.acquire
  split
  · exact .inr rfl
  · split
    · exact .inl ⟨_, rfl⟩
    · exact .inl ⟨_, rfl⟩
    · exact .inr rfl

/-- Whoever acquires the lock finds it held by a process of its user, or free. -/
theorem written_acquire {s s' : State} {p : Nat} (written : Written s)
    (sameUser : SameUser user s (.acquire p))
    (taken : step user others s (.acquire p) = some s') : Written s' := by
  simp only [step] at taken
  split at taken
  · rename_i lock at_
    have kept : Written ({ s with file := s.file }.put p (.live lock)) :=
      Written.put (s := s) written fun held => by rw [at_]; exact held
    by_cases some_ : ∃ q, (s.process q).isHeld
    · obtain ⟨q, held⟩ := some_
      rw [acquire_of_held written held (sameUser q held)] at taken
      cases taken
      exact kept
    · rcases acquire_cases (os user others s p) lock s.file with ⟨e, raised⟩ | wrote
      · rw [raised] at taken
        cases taken
        exact kept
      · rw [wrote] at taken
        cases taken
        exact written_of_free (fun q held => some_ ⟨q, held⟩) p _
  · cases taken

/-- A release by the holder, and one by a process that does not hold the lock. -/
theorem written_release {s s' : State} {p : Nat} (written : Written s)
    (taken : step user others s (.release p) = some s') : Written s' := by
  simp only [step] at taken
  split at taken
  · rename_i lock at_
    rw [JobLock.release] at taken
    cases held : lock.held with
    | true =>
        rw [held] at taken
        cases taken
        have holder : (s.process p).isHeld := by
          rw [at_]
          exact held
        exact written.letGo holder rfl _ _
    | false =>
        rw [held] at taken
        cases taken
        refine Written.put (s := s) written fun stays => ?_
        have holds : lock.held = true := stays
        rw [held] at holds
        cases holds
  · cases taken

/-- **One step** keeps what is written. -/
theorem written_step (s : State) (a : Action) (s' : State) (written : Written s)
    (sameUser : SameUser user s a) (taken : step user others s a = some s') : Written s' := by
  cases a with
  | acquire p => exact written_acquire written sameUser taken
  | release p => exact written_release written taken
  | crash p =>
      simp only [step] at taken
      split at taken
      · cases taken
        exact written.put fun impossible => by cases impossible
      · cases taken
  | start p jobName =>
      simp only [step] at taken
      split at taken
      · cases taken
        exact written.put fun impossible => by cases impossible
      · cases taken

/-- **Ownership**, in every run in which nobody acquires the lock while a process of another
user has it. -/
theorem owned_of_run {s : State} (run : (system user others).RunsTo (SameUser user) s) :
    Owned s := by
  have written : Written s := by
    refine run.invariant (fun s free => ?_) written_step
    exact ⟨fun p held => absurd held (by rw [free p]; exact Bool.false_ne_true),
      fun p held => absurd held (by rw [free p]; exact Bool.false_ne_true)⟩
  exact written.owned

/-- **An `acquire` over a holder of another user** takes the lock from it. -/
theorem acquire_takes_over {s s' : State} {p q : Nat} (owned : Owned s)
    (held : (s.process q).isHeld) (other : user q ≠ user p)
    (taken : step user others s (.acquire p) = some s') : ¬ Owned s' := by
  have ne : q ≠ p := fun same => other (congrArg user same)
  have found : JobLock.readPid s.file = some (q : Int) := by
    rw [owned.named q held, JobLock.readPid_strOf]
  have answer : kill user others s (user p) (q : Int) = .permissionError := by
    show (if (s.process q).isLive then _ else _) = _
    rw [if_pos (isLive_of_isHeld held), if_neg other]
  simp only [step] at taken
  split at taken
  · rename_i lock at_
    simp only [JobLock.acquire, found, os, answer, JobLock.pidRunning, JobLock.writePid,
      Option.some.injEq] at taken
    subst taken
    intro later
    refine ne (later.exclusive q p ?_ ?_)
    · rw [State.put_process_of_ne _ ne]
      exact held
    · rw [State.put_process_self]
      rfl
  · cases taken

/-- Processes of one user for each of the last digits. -/
def lastDigit (p : Nat) : Nat := p % 10

def noSuchProcess : Int → JobLock.KillOutcome := fun _ => .processLookupError

/-- Every process runs, and there is no lock file. -/
def idle : State where
  file := none
  writer := none
  process := fun _ => .live { jobName := "report" }

theorem idle_init : (system lastDigit noSuchProcess).init idle := fun _ => rfl

/-- A process crashes with the lock, and another one of its user takes over. -/
def takenOver : List Action := [.acquire 11, .crash 11, .acquire 21]

theorem sameUser_takenOver :
    (system lastDigit noSuchProcess).Meets (SameUser lastDigit) takenOver idle := by
  refine ⟨fun q held => absurd held Bool.false_ne_true, fun s acquired => ?_⟩
  cases acquired
  refine ⟨trivial, fun s crashed => ?_⟩
  cases crashed
  refine ⟨fun q held => ?_, fun _ _ => trivial⟩
  by_cases here : q = 11
  · rw [here] at held
    cases held
  · rw [State.put_process_of_ne _ here, State.put_process_of_ne _ here] at held
    cases held

theorem owned_takenOver :
    ∃ s, (system lastDigit noSuchProcess).exec takenOver idle = some s ∧
      s.file = some (strOf 21) ∧ Owned s :=
  have executed : (system lastDigit noSuchProcess).exec takenOver idle = some _ := rfl
  ⟨_, executed, rfl, owned_of_run (.exec (.init idle_init) sameUser_takenOver executed)⟩

/-- Two processes of different users acquire the lock one after the other, and the release
of the first one removes the file of the second. -/
theorem owned_fails :
    ∃ s, (system lastDigit noSuchProcess).Reachable s ∧ (s.process 11).isHeld ∧
      (s.process 22).isHeld ∧ s.writer = some 22 ∧
      (∃ s', step lastDigit noSuchProcess s (.release 11) = some s' ∧ s'.file = none ∧
        (s'.process 22).isHeld) ∧
      ¬ Owned s := by
  have executed : (system lastDigit noSuchProcess).exec [.acquire 11, .acquire 22] idle = some _ :=
    rfl
  have both := TransitionSystem.reachable_of_exec idle_init executed
  refine ⟨_, both, by decide +kernel, by decide +kernel, by decide +kernel,
    ⟨_, rfl, by decide +kernel, by decide +kernel⟩, fun owned => ?_⟩
  have same : 11 = 22 := owned.exclusive 11 22 (by decide +kernel) (by decide +kernel)
  cases same

end Cronwatch.Jobs.LockUsers
