/-
# Jobs.Concurrency -- a semaphore per job and the runs that pass it

`ConcurrencyGuard` makes one semaphore per job name, with `max(1, limit)` slots, when it
is first asked for; here the guard holds the number of free slots of each.
`ConcurrentExecutor.run` takes a slot without waiting, calls the inner executor and
gives the slot back, also when the inner executor raises.  Without a free slot it makes
a synthetic result, with keywords that `ExecutionResult` does not have.

`system` interleaves any number of such calls: taking the slot, the inner execution and
giving the slot back are one step each, and `exec_run` says that the steps of one call
without a pause are `run`.  `slots_accounted` is about all its runs: the free slots of a
job are those that no call has, and the calls on one job are independent of the others.
-/
import Cronwatch.Jobs.Config
import Cronwatch.Jobs.Execution
import Cronwatch.Theory.Transition
import Mathlib.Data.List.Basic
import Mathlib.Tactic.Push

namespace Cronwatch.Jobs

set_option autoImplicit false

open Cronwatch.Theory Cronwatch.Runtime

structure ConcurrencyPolicy where
  default : Int := 1
  perJob : Dict String Int := .empty

namespace ConcurrencyPolicy

def limitFor (job : JobConfig) (policy : ConcurrencyPolicy) : Int :=
  (policy.perJob.get? job.name).getD policy.default

/-- The slots of the semaphore that is made for a name. -/
def slots (policy : ConcurrencyPolicy) (name : String) : Nat :=
  (max 1 ((policy.perJob.get? name).getD policy.default)).toNat

theorem slots_eq (policy : ConcurrencyPolicy) (job : JobConfig) :
    (policy.slots job.name : Int) = max 1 (policy.limitFor job) := by
  have positive : 0 ≤ max 1 ((policy.perJob.get? job.name).getD policy.default) :=
    Int.one_nonneg.trans (le_max_left _ _)
  exact Int.toNat_of_nonneg positive

end ConcurrencyPolicy

structure ConcurrencySlotUnavailable where
  jobName : String
deriving DecidableEq

/-- The free slots of every semaphore made so far. -/
structure ConcurrencyGuard (policy : ConcurrencyPolicy) where
  semaphores : Dict String Nat := .empty

namespace ConcurrencyGuard

variable {policy : ConcurrencyPolicy}

/-- The semaphore `_semaphore_for(job)` finds or makes, and the guard with it. -/
def semaphoreFor (job : JobConfig) (g : ConcurrencyGuard policy) : Nat × ConcurrencyGuard policy :=
  match g.semaphores.get? job.name with
  | some free => (free, g)
  | none =>
      let free := (max 1 (policy.limitFor job)).toNat
      (free, { semaphores := g.semaphores.set job.name free })

/-- `acquire(job, block=False)`. -/
def acquire (job : JobConfig) (g : ConcurrencyGuard policy) : Bool × ConcurrencyGuard policy :=
  match g.semaphoreFor job with
  | (0, g) => (false, g)
  | (free + 1, g) => (true, { semaphores := g.semaphores.set job.name free })

def release (job : JobConfig) (g : ConcurrencyGuard policy) : ConcurrencyGuard policy :=
  match g.semaphoreFor job with
  | (free, g) => { semaphores := g.semaphores.set job.name (free + 1) }

def tryAcquire (job : JobConfig) (g : ConcurrencyGuard policy) :
    Except ConcurrencySlotUnavailable Unit × ConcurrencyGuard policy :=
  match g.acquire job with
  | (true, g) => (.ok (), g)
  | (false, g) => (.error ⟨job.name⟩, g)

/-- The slots of a name that can be taken now. -/
def freeSlots (g : ConcurrencyGuard policy) (name : String) : Nat :=
  (g.semaphores.get? name).getD (policy.slots name)

theorem semaphoreFor_eq (job : JobConfig) (g : ConcurrencyGuard policy) :
    (g.semaphoreFor job).1 = g.freeSlots job.name ∧
      ∀ name, (g.semaphoreFor job).2.freeSlots name = g.freeSlots name := by
  unfold semaphoreFor freeSlots
  cases made : g.semaphores.get? job.name with
  | some free => exact ⟨rfl, fun _ => rfl⟩
  | none =>
      refine ⟨rfl, fun name => ?_⟩
      dsimp only
      rw [Dict.get?_set]
      split
      · rename_i same
        rw [same, made]
        rfl
      · rfl

theorem freeSlots_set (g : ConcurrencyGuard policy) (name : String) (free : Nat) (name' : String) :
    ({ semaphores := g.semaphores.set name free } : ConcurrencyGuard policy).freeSlots name' =
      if name' = name then free else g.freeSlots name' := by
  unfold freeSlots
  dsimp only
  rw [Dict.get?_set]
  split <;> rfl

/-- **Taking a slot**: it works exactly when one is free, and takes no other. -/
theorem tryAcquire_spec (job : JobConfig) (g : ConcurrencyGuard policy) :
    (g.freeSlots job.name = 0 ∧ (g.tryAcquire job).1 = .error ⟨job.name⟩ ∧
        ∀ name, (g.tryAcquire job).2.freeSlots name = g.freeSlots name) ∨
      ∃ free, g.freeSlots job.name = free + 1 ∧ (g.tryAcquire job).1 = .ok () ∧
        ∀ name, (g.tryAcquire job).2.freeSlots name =
          if name = job.name then free else g.freeSlots name := by
  obtain ⟨count, others⟩ := g.semaphoreFor_eq job
  unfold tryAcquire acquire
  rcases found : g.semaphoreFor job with ⟨_ | free, g'⟩
  · rw [found] at count others
    exact .inl ⟨count.symm, rfl, others⟩
  · rw [found] at count others
    refine .inr ⟨free, count.symm, rfl, fun name => ?_⟩
    dsimp only
    rw [freeSlots_set]
    split
    · rfl
    · exact others name

/-- What comes of it depends on the free slots of the name alone. -/
theorem tryAcquire_congr {g g' : ConcurrencyGuard policy} {job : JobConfig}
    (same : g'.freeSlots job.name = g.freeSlots job.name) :
    (g'.tryAcquire job).1 = (g.tryAcquire job).1 ∧
      (g'.tryAcquire job).2.freeSlots job.name = (g.tryAcquire job).2.freeSlots job.name := by
  rcases g.tryAcquire_spec job with ⟨none, refused, kept⟩ | ⟨free, some, granted, less⟩
  · rcases g'.tryAcquire_spec job with ⟨-, refused', kept'⟩ | ⟨free', some', -, -⟩
    · exact ⟨refused'.trans refused.symm, by rw [kept, kept', same]⟩
    · rw [same, none] at some'
      cases some'
  · rcases g'.tryAcquire_spec job with ⟨none', -, -⟩ | ⟨free', some', granted', less'⟩
    · rw [same, some] at none'
      cases none'
    · rw [same, some] at some'
      cases some'
      exact ⟨granted'.trans granted.symm, by rw [less, less', if_pos rfl, if_pos rfl]⟩

theorem release_spec (job : JobConfig) (g : ConcurrencyGuard policy) (name : String) :
    (g.release job).freeSlots name =
      if name = job.name then g.freeSlots job.name + 1 else g.freeSlots name := by
  obtain ⟨count, others⟩ := g.semaphoreFor_eq job
  unfold release
  rcases found : g.semaphoreFor job with ⟨free, g'⟩
  rw [found] at count others
  dsimp only at count ⊢
  rw [freeSlots_set, count]
  split
  · rfl
  · exact others name

end ConcurrencyGuard

namespace ConcurrentExecutor

variable {policy : ConcurrencyPolicy}

/-- The synthetic result of a job that finds no free slot. -/
def declined (job : JobConfig) : Except PyException ExecutionResult :=
  ExecutionResult.init [.jobName job.name, .success false, .exitCode (-1), .stdout "",
    .stderr s!"Skipped: concurrency limit reached for '{job.name}'", .duration 0]

theorem declined_raises (job : JobConfig) : declined job = .error
    (.typeError "ExecutionResult.__init__() got an unexpected keyword argument 'success'") :=
  ExecutionResult.init_of_success job.name false _

def run (inner : JobConfig → Except PyException ExecutionResult) (job : JobConfig)
    (g : ConcurrencyGuard policy) :
    Except PyException ExecutionResult × ConcurrencyGuard policy :=
  match g.tryAcquire job with
  | (.error _, g) => (declined job, g)
  | (.ok (), g) => (inner job, g.release job)

/-! ## Overlapping calls -/

/-- How far a call of `run` is.  It has its slot from `running` until `returned`. -/
inductive Point where
  | outside
  | running
  | finished (outcome : Except PyException ExecutionResult)
  | returned (outcome : Except PyException ExecutionResult)

def Point.hasSlot : Point → Bool
  | .running | .finished _ => true
  | .outside | .returned _ => false

structure Call where
  job : JobConfig
  point : Point

/-- The guard, the calls, and the calls that have called the inner executor. -/
structure State (policy : ConcurrencyPolicy) where
  guard : ConcurrencyGuard policy
  calls : List Call
  handed : List Nat

/-- A step of the call with this number. -/
inductive Action where
  | acquire (i : Nat)
  /-- The inner execution of the call returns or raises. -/
  | finish (i : Nat) (outcome : Except PyException ExecutionResult)
  | release (i : Nat)

def Action.call : Action → Nat
  | .acquire i | .finish i _ | .release i => i

namespace State

def put (s : State policy) (i : Nat) (call : Call) : State policy :=
  { s with calls := s.calls.set i call }

/-- The calls on a name that have a slot: those from their acquire step to their
release step. -/
def inProgress (s : State policy) (name : String) : Nat :=
  s.calls.countP fun call => call.job.name = name ∧ call.point.hasSlot

end State

/-- One step; `none` where the call cannot take it. -/
def step (s : State policy) : Action → Option (State policy)
  | .acquire i =>
      match s.calls[i]? with
      | some ⟨job, .outside⟩ =>
          match s.guard.tryAcquire job with
          | (.ok (), guard) =>
              some ({ s with guard, handed := s.handed ++ [i] }.put i ⟨job, .running⟩)
          | (.error _, guard) => some ({ s with guard }.put i ⟨job, .returned (declined job)⟩)
      | _ => none
  | .finish i outcome =>
      match s.calls[i]? with
      | some ⟨job, .running⟩ => some (s.put i ⟨job, .finished outcome⟩)
      | _ => none
  | .release i =>
      match s.calls[i]? with
      | some ⟨job, .finished outcome⟩ =>
          some ({ s with guard := s.guard.release job }.put i ⟨job, .returned outcome⟩)
      | _ => none

/-- A new guard, and any number of calls on any jobs that have not begun. -/
def system (policy : ConcurrencyPolicy) : TransitionSystem (State policy) Action where
  init := fun s => s.guard = {} ∧ s.handed = [] ∧ ∀ call ∈ s.calls, call.point = .outside
  step := step

theorem getElem?_set_self {s : State policy} {i : Nat} {call : Call}
    (at_ : s.calls[i]? = some call) (call' : Call) : (s.put i call').calls[i]? = some call' := by
  obtain ⟨inside, -⟩ := List.getElem?_eq_some_iff.mp at_
  simp [State.put, inside]

/-- What a step can do, by the point that its call is at. -/
inductive Takes (s : State policy) : Action → State policy → Prop where
  | granted {i : Nat} {job : JobConfig} {guard : ConcurrencyGuard policy}
      (at_ : s.calls[i]? = some ⟨job, .outside⟩) (tried : s.guard.tryAcquire job = (.ok (), guard)) :
      Takes s (.acquire i) ({ s with guard, handed := s.handed ++ [i] }.put i ⟨job, .running⟩)
  | declined {i : Nat} {job : JobConfig} {e : ConcurrencySlotUnavailable}
      {guard : ConcurrencyGuard policy} (at_ : s.calls[i]? = some ⟨job, .outside⟩)
      (tried : s.guard.tryAcquire job = (.error e, guard)) :
      Takes s (.acquire i) ({ s with guard }.put i ⟨job, .returned (declined job)⟩)
  | finish {i : Nat} {job : JobConfig} (at_ : s.calls[i]? = some ⟨job, .running⟩)
      (outcome : Except PyException ExecutionResult) :
      Takes s (.finish i outcome) (s.put i ⟨job, .finished outcome⟩)
  | release {i : Nat} {job : JobConfig} {outcome : Except PyException ExecutionResult}
      (at_ : s.calls[i]? = some ⟨job, .finished outcome⟩) :
      Takes s (.release i)
        ({ s with guard := s.guard.release job }.put i ⟨job, .returned outcome⟩)

theorem step_iff {s s' : State policy} {a : Action} : step s a = some s' ↔ Takes s a s' := by
  constructor
  · intro taken
    cases a with
    | acquire i =>
        simp only [step] at taken
        split at taken
        · rename_i job at_
          split at taken
          · rename_i guard tried
            cases taken
            exact .granted at_ tried
          · rename_i e guard tried
            cases taken
            exact .declined at_ tried
        · cases taken
    | finish i outcome =>
        simp only [step] at taken
        split at taken
        · rename_i job at_
          cases taken
          exact .finish at_ outcome
        · cases taken
    | release i =>
        simp only [step] at taken
        split at taken
        · rename_i job outcome at_
          cases taken
          exact .release at_
        · cases taken
  · intro takes
    cases takes with
    | granted at_ tried => simp only [step, at_, tried]
    | declined at_ tried => simp only [step, at_, tried]
    | finish at_ outcome => simp only [step, at_]
    | release at_ => simp only [step, at_]

/-- **Steps without a pause are `run`**: they leave the guard as the call does, and the
call with what it returns or raises. -/
theorem exec_run (inner : JobConfig → Except PyException ExecutionResult) (s : State policy)
    {i : Nat} {job : JobConfig} (at_ : s.calls[i]? = some ⟨job, .outside⟩) :
    ∃ actions : List Action, (∀ a ∈ actions, a.call = i) ∧
      ∃ s', (system policy).exec actions s = some s' ∧ s'.guard = (run inner job s.guard).2 ∧
        s'.calls = s.calls.set i ⟨job, .returned (run inner job s.guard).1⟩ := by
  unfold run
  rcases tried : s.guard.tryAcquire job with ⟨unavailable | ⟨⟩, guard⟩
  · have taken := step_iff.mpr (Takes.declined at_ tried)
    exact ⟨[.acquire i], by simp [Action.call], _, TransitionSystem.exec_cons taken [], rfl, rfl⟩
  · have begun : ({ s with guard, handed := s.handed ++ [i] } : State policy).calls[i]? =
        some ⟨job, .outside⟩ := at_
    have running := getElem?_set_self begun ⟨job, .running⟩
    have finished := getElem?_set_self running ⟨job, .finished (inner job)⟩
    have taken₁ := step_iff.mpr (Takes.granted at_ tried)
    have taken₂ := step_iff.mpr (Takes.finish running (inner job))
    have taken₃ := step_iff.mpr (Takes.release finished)
    have executed :=
      calc (system policy).exec [.acquire i, .finish i (inner job), .release i] s
          = (system policy).exec [.finish i (inner job), .release i] _ :=
            TransitionSystem.exec_cons taken₁ _
        _ = (system policy).exec [.release i] _ := TransitionSystem.exec_cons taken₂ _
        _ = some _ := TransitionSystem.exec_cons taken₃ []
    exact ⟨_, by simp [Action.call], _, executed, rfl, by simp [State.put]⟩

/-! ## Every slot is free or has a call -/

theorem countP_set_add {α : Type} (p : α → Bool) {l : List α} {i : Nat} {old : α}
    (found : l[i]? = some old) (new : α) :
    (l.set i new).countP p + (if p old then 1 else 0) = l.countP p + if p new then 1 else 0 := by
  induction l generalizing i with
  | nil => cases found
  | cons a rest ih =>
      cases i with
      | zero =>
          cases found
          rw [List.set_cons_zero, List.countP_cons, List.countP_cons]
          omega
      | succ i =>
          have later := ih (by simpa using found)
          rw [List.set_cons_succ, List.countP_cons, List.countP_cons]
          omega

/-- **One step** moves one call on, and the slot it takes or gives back is the only one
that changes. -/
theorem step_balance {s s' : State policy} {a : Action} (taken : step s a = some s') :
    ∃ job before after, s.calls[a.call]? = some ⟨job, before⟩ ∧
      s'.calls = s.calls.set a.call ⟨job, after⟩ ∧
      ∀ name, s'.guard.freeSlots name + (if name = job.name ∧ after.hasSlot then 1 else 0) =
        s.guard.freeSlots name + if name = job.name ∧ before.hasSlot then 1 else 0 := by
  cases step_iff.mp taken with
  | @granted i job guard at_ tried =>
      refine ⟨job, _, _, at_, rfl, fun name => ?_⟩
      rcases s.guard.tryAcquire_spec job with ⟨-, refused, -⟩ | ⟨free, some, -, less⟩
      · rw [tried] at refused
        cases refused
      · rw [tried] at less
        by_cases here : name = job.name <;> simp [State.put, Point.hasSlot, less, here, some]
  | @declined i job e guard at_ tried =>
      refine ⟨job, _, _, at_, rfl, fun name => ?_⟩
      rcases s.guard.tryAcquire_spec job with ⟨-, -, same⟩ | ⟨free, -, granted, -⟩
      · rw [tried] at same
        simp [State.put, Point.hasSlot, same]
      · rw [tried] at granted
        cases granted
  | finish at_ outcome => exact ⟨_, _, _, at_, rfl, fun name => by simp [State.put, Point.hasSlot]⟩
  | @release i job outcome at_ =>
      refine ⟨job, _, _, at_, rfl, fun name => ?_⟩
      by_cases here : name = job.name <;>
        simp [State.put, Point.hasSlot, ConcurrencyGuard.release_spec, here]

/-- The slots of every name are those that are free and those that calls have. -/
def Accounted (s : State policy) : Prop :=
  ∀ name, s.guard.freeSlots name + s.inProgress name = policy.slots name

theorem accounted_init {s : State policy} (initial : (system policy).init s) : Accounted s := by
  obtain ⟨new, -, begun⟩ := initial
  intro name
  have idle : s.inProgress name = 0 := by
    rw [State.inProgress, List.countP_eq_zero]
    intro call member
    simp [begun call member, Point.hasSlot]
  rw [idle, new]
  rfl

theorem accounted_step (s : State policy) (a : Action) (s' : State policy)
    (accounted : Accounted s) (taken : step s a = some s') : Accounted s' := by
  intro name
  obtain ⟨job, before, after, at_, moved, balance⟩ := step_balance taken
  have counted := countP_set_add
    (fun call : Call => decide (call.job.name = name ∧ call.point.hasSlot)) at_ ⟨job, after⟩
  have total := accounted name
  have slot := balance name
  rw [State.inProgress, moved]
  rw [State.inProgress] at total
  simp only [decide_eq_true_eq, eq_comm (a := job.name)] at counted
  omega

theorem accounted_of_reachable {s : State policy} (reachable : (system policy).Reachable s) :
    Accounted s :=
  reachable.invariant (fun _ initial => accounted_init initial)
    fun s a s' accounted _ taken => accounted_step s a s' accounted taken

/-! ## Calls that find no free slot -/

/-- A call that finds no free slot returns with the synthetic result; no slot changes. -/
theorem step_declined {s : State policy} {i : Nat} {job : JobConfig}
    (at_ : s.calls[i]? = some ⟨job, .outside⟩) (full : s.guard.freeSlots job.name = 0) :
    ∃ s', step s (.acquire i) = some s' ∧
      (∀ name, s'.guard.freeSlots name = s.guard.freeSlots name) ∧ s'.handed = s.handed ∧
      s'.calls[i]? = some ⟨job, .returned (declined job)⟩ := by
  rcases s.guard.tryAcquire_spec job with ⟨-, refused, same⟩ | ⟨free, some, -, -⟩
  · rcases tried : s.guard.tryAcquire job with ⟨answer, guard⟩
    rw [tried] at refused same
    cases refused
    have here : ({ s with guard } : State policy).calls[i]? = some ⟨job, .outside⟩ := at_
    exact ⟨_, step_iff.mpr (.declined at_ tried), same, rfl, getElem?_set_self here _⟩
  · rw [full] at some
    cases some

/-- A call that has returned takes no more steps. -/
theorem step_returned {s s' : State policy} {a : Action} (taken : step s a = some s') {i : Nat}
    {job : JobConfig} {outcome : Except PyException ExecutionResult}
    (at_ : s.calls[i]? = some ⟨job, .returned outcome⟩) :
    s'.calls[i]? = some ⟨job, .returned outcome⟩ ∧ (i ∈ s'.handed ↔ i ∈ s.handed) := by
  have stays : ∀ {j : Nat} {call call' : Call}, s.calls[j]? = some call →
      call ≠ ⟨job, .returned outcome⟩ →
      (s.calls.set j call')[i]? = some ⟨job, .returned outcome⟩ ∧ i ≠ j := by
    intro j call call' found other
    have ne : i ≠ j := by
      rintro rfl
      rw [at_] at found
      exact other (Option.some.inj found).symm
    exact ⟨by rw [List.getElem?_set_ne ne.symm, at_], ne⟩
  cases step_iff.mp taken with
  | granted found tried =>
      obtain ⟨kept, ne⟩ := stays found (by simp)
      exact ⟨kept, by simp [State.put, ne]⟩
  | declined found tried => exact ⟨(stays found (by simp)).1, Iff.rfl⟩
  | finish found outcome => exact ⟨(stays found (by simp)).1, Iff.rfl⟩
  | release found => exact ⟨(stays found (by simp)).1, Iff.rfl⟩

theorem exec_returned {s t : State policy} {actions : List Action}
    (executed : (system policy).exec actions s = some t) {i : Nat} {job : JobConfig}
    {outcome : Except PyException ExecutionResult}
    (at_ : s.calls[i]? = some ⟨job, .returned outcome⟩) : i ∈ t.handed ↔ i ∈ s.handed := by
  induction actions generalizing s with
  | nil =>
      cases executed
      exact Iff.rfl
  | cons a rest ih =>
      obtain ⟨s', taken, later⟩ := Option.bind_eq_some_iff.mp executed
      obtain ⟨kept, same⟩ := step_returned taken at_
      exact (ih later kept).trans same

/-- A call that has not begun has not called the inner executor. -/
def Begun (s : State policy) : Prop :=
  ∀ i ∈ s.handed, ∀ call, s.calls[i]? = some call → call.point ≠ .outside

theorem begun_step (s : State policy) (a : Action) (s' : State policy) (begun : Begun s)
    (taken : step s a = some s') : Begun s' := by
  have moved : ∀ {j : Nat} {job : JobConfig} {point : Point}, point ≠ .outside →
      ∀ i, (i = j ∨ i ∈ s.handed) → ∀ call, (s.calls.set j ⟨job, point⟩)[i]? = some call →
        call.point ≠ .outside := by
    intro j job point inside i handed call found
    rw [List.getElem?_set] at found
    split at found
    · split at found
      · cases found
        exact inside
      · cases found
    · rename_i other
      exact begun i (handed.resolve_left fun same => other same.symm) call found
  cases step_iff.mp taken with
  | granted at_ tried =>
      intro i member
      refine moved (by simp) i ?_
      simpa [State.put, or_comm] using member
  | declined at_ tried => exact fun i member => moved (by simp) i (.inr member)
  | finish at_ outcome => exact fun i member => moved (by simp) i (.inr member)
  | release at_ => exact fun i member => moved (by simp) i (.inr member)

theorem begun_of_reachable {s : State policy} (reachable : (system policy).Reachable s) :
    Begun s := by
  refine reachable.invariant (fun s initial i member => ?_)
    fun s a s' begun _ taken => begun_step s a s' begun taken
  rw [initial.2.1] at member
  cases member

/-! ## Calls on one name -/

/-- The step is one of a call on the name. -/
def concerns (calls : List Call) (name : String) (a : Action) : Bool :=
  (calls[a.call]?.map fun call => call.job.name) = some name

theorem concerns_step {s s' : State policy} {a : Action} (taken : step s a = some s')
    (name : String) (b : Action) : concerns s'.calls name b = concerns s.calls name b := by
  obtain ⟨job, before, after, at_, moved, -⟩ := step_balance taken
  rw [concerns, concerns, moved, List.getElem?_set]
  split
  · rename_i same
    obtain ⟨inside, -⟩ := List.getElem?_eq_some_iff.mp at_
    rw [if_pos inside, ← same, at_]
    rfl
  · rfl

/-- The two states agree on the free slots of the name and on its calls. -/
structure Agree (name : String) (s t : State policy) : Prop where
  free : t.guard.freeSlots name = s.guard.freeSlots name
  calls : ∀ (i : Nat) (call : Call), s.calls[i]? = some call → call.job.name = name →
    t.calls[i]? = some call

section Agree

variable {name : String} {s t s' : State policy}

/-- The same move of the same call. -/
theorem Agree.calls_set (agree : Agree name s t) {i : Nat} {call : Call}
    (at_ : t.calls[i]? = some call) (call' : Call) :
    ∀ (j : Nat) (moved : Call), (s.calls.set i call')[j]? = some moved → moved.job.name = name →
      (t.calls.set i call')[j]? = some moved := by
  intro j moved found named
  rw [List.getElem?_set] at found ⊢
  split at found
  · rename_i same
    obtain ⟨inside, -⟩ := List.getElem?_eq_some_iff.mp at_
    split at found
    · rw [if_pos same, if_pos inside]
      exact found
    · cases found
  · rename_i other
    rw [if_neg other]
    exact agree.calls j moved found named

/-- Asked for a slot of the name, the two give the same answer. -/
theorem Agree.tryAcquire {job : JobConfig} (agree : Agree job.name s t)
    {answer : Except ConcurrencySlotUnavailable Unit} {guard : ConcurrencyGuard policy}
    (tried : s.guard.tryAcquire job = (answer, guard)) :
    ∃ guard', t.guard.tryAcquire job = (answer, guard') ∧
      guard'.freeSlots job.name = guard.freeSlots job.name := by
  obtain ⟨answer_eq, free_eq⟩ := ConcurrencyGuard.tryAcquire_congr agree.free
  rcases tried' : t.guard.tryAcquire job with ⟨answer', guard'⟩
  rw [tried, tried'] at answer_eq free_eq
  cases answer_eq
  exact ⟨guard', rfl, free_eq⟩

/-- A step of a call on the name can be taken in both. -/
theorem Agree.step_of_concerns (agree : Agree name s t) {a : Action}
    (taken : step s a = some s') (concerned : concerns s.calls name a = true) :
    ∃ t', step t a = some t' ∧ Agree name s' t' := by
  have named : ∀ call : Call, s.calls[a.call]? = some call →
      call.job.name = name ∧ t.calls[a.call]? = some call := by
    intro call at_
    have same : call.job.name = name := by simpa [concerns, at_] using concerned
    exact ⟨same, agree.calls a.call call at_ same⟩
  cases step_iff.mp taken with
  | @granted i job guard at_ tried =>
      obtain ⟨rfl, at'⟩ := named _ at_
      obtain ⟨guard', tried', free_eq⟩ := agree.tryAcquire tried
      exact ⟨_, step_iff.mpr (.granted at' tried'), free_eq, agree.calls_set at' _⟩
  | @declined i job e guard at_ tried =>
      obtain ⟨rfl, at'⟩ := named _ at_
      obtain ⟨guard', tried', free_eq⟩ := agree.tryAcquire tried
      exact ⟨_, step_iff.mpr (.declined at' tried'), free_eq, agree.calls_set at' _⟩
  | finish at_ outcome =>
      obtain ⟨rfl, at'⟩ := named _ at_
      exact ⟨_, step_iff.mpr (.finish at' outcome), agree.free, agree.calls_set at' _⟩
  | @release i job outcome at_ =>
      obtain ⟨rfl, at'⟩ := named _ at_
      refine ⟨_, step_iff.mpr (.release at'), ?_, agree.calls_set at' _⟩
      show (t.guard.release job).freeSlots job.name = (s.guard.release job).freeSlots job.name
      rw [ConcurrencyGuard.release_spec, ConcurrencyGuard.release_spec, agree.free]

/-- A step of a call on another name changes nothing that the two agree on. -/
theorem Agree.step_of_other (agree : Agree name s t) {a : Action} (taken : step s a = some s')
    (other : concerns s.calls name a = false) : Agree name s' t := by
  obtain ⟨job, before, after, at_, moved, balance⟩ := step_balance taken
  have ne : job.name ≠ name := by simpa [concerns, at_] using other
  constructor
  · have slot := balance name
    rw [if_neg fun same => ne same.1.symm, if_neg fun same => ne same.1.symm] at slot
    rw [agree.free]
    exact slot.symm
  · intro j call found named
    rw [moved, List.getElem?_set] at found
    split at found
    · split at found
      · cases found
        exact absurd named ne
      · cases found
    · exact agree.calls j call found named

/-- **The calls on one name**, run on their own, go as they do among the others. -/
theorem Agree.exec (agree : Agree name s t) {actions : List Action}
    (executed : (system policy).exec actions s = some s') :
    ∃ t', (system policy).exec (actions.filter (concerns s.calls name)) t = some t' ∧
      Agree name s' t' := by
  induction actions generalizing s t with
  | nil =>
      cases executed
      exact ⟨t, rfl, agree⟩
  | cons a rest ih =>
      obtain ⟨middle, taken, later⟩ := Option.bind_eq_some_iff.mp executed
      have same : concerns middle.calls name = concerns s.calls name :=
        funext fun b => concerns_step taken name b
      rw [List.filter_cons, ← same]
      split
      · rename_i concerned
        rw [same] at concerned
        obtain ⟨t', taken', agree'⟩ := agree.step_of_concerns taken concerned
        obtain ⟨last, executed', agreeLast⟩ := ih agree' later
        exact ⟨last, Option.bind_eq_some_iff.mpr ⟨t', taken', executed'⟩, agreeLast⟩
      · rename_i other
        rw [same] at other
        exact ih (agree.step_of_other taken (Bool.eq_false_iff.mpr other)) later

end Agree

/-- **The accounting of slots**, in every run of any number of overlapping calls.  Of a
job at most `max(1, limit)` inner executions are in progress, and the free slots are
the rest; a call that finds no free slot changes none and never calls the inner
executor; and the calls on one name go as they would without the others. -/
theorem slots_accounted {start s : State policy} (initial : (system policy).init start)
    {actions : List Action} (executed : (system policy).exec actions start = some s) :
    (∀ job, (s.inProgress job.name : Int) ≤ max 1 (policy.limitFor job) ∧
      (s.guard.freeSlots job.name : Int) =
        max 1 (policy.limitFor job) - s.inProgress job.name) ∧
    (∀ (i : Nat) (job : JobConfig), s.calls[i]? = some ⟨job, .outside⟩ →
      s.guard.freeSlots job.name = 0 →
      ∃ s', step s (.acquire i) = some s' ∧
        (∀ name, s'.guard.freeSlots name = s.guard.freeSlots name) ∧
        ∀ later t, (system policy).exec later s' = some t → i ∉ t.handed) ∧
    ∀ name, ∃ t, (system policy).exec (actions.filter (concerns start.calls name)) start = some t ∧
      t.guard.freeSlots name = s.guard.freeSlots name ∧
      ∀ (i : Nat) (call : Call), s.calls[i]? = some call → call.job.name = name →
        t.calls[i]? = some call := by
  have reachable := TransitionSystem.reachable_of_exec initial executed
  refine ⟨fun job => ?_, fun i job at_ full => ?_, fun name => ?_⟩
  · have total := accounted_of_reachable reachable job.name
    rw [← policy.slots_eq job, ← total]
    omega
  · obtain ⟨s', taken, same, handed, returned⟩ := step_declined at_ full
    refine ⟨s', taken, same, fun later t executed' => ?_⟩
    rw [exec_returned executed' returned, handed]
    exact fun member => begun_of_reachable reachable i member _ at_ rfl
  · obtain ⟨t, executed', agree⟩ :=
      Agree.exec (⟨rfl, fun _ _ found _ => found⟩ : Agree name start start) executed
    exact ⟨t, executed', agree.free, agree.calls⟩

def twoSlots : ConcurrencyPolicy where
  default := 2

def backup : JobConfig where
  name := "backup"
  command := "tar c /"
  schedule := "0 * * * *"

/-- Three calls on one job. -/
def threeCalls : State twoSlots where
  guard := {}
  calls := [⟨backup, .outside⟩, ⟨backup, .outside⟩, ⟨backup, .outside⟩]
  handed := []

theorem threeCalls_init : (system twoSlots).init threeCalls :=
  ⟨rfl, rfl, by simp [threeCalls]⟩

/-- The third call is declined; the first raises, and its slot is free again. -/
theorem third_call_declined :
    ∃ s, (system twoSlots).exec [.acquire 0, .acquire 1, .acquire 2,
        .finish 0 (.error (.foreign "disk full")), .release 0] threeCalls = some s ∧
      s.handed = [0, 1] ∧ s.inProgress "backup" = 1 ∧
      (s.guard.freeSlots "backup" : Int) =
        max 1 (twoSlots.limitFor backup) - s.inProgress "backup" := by
  refine ⟨_, rfl, rfl, by decide +kernel, ?_⟩
  have executed : (system twoSlots).exec [.acquire 0, .acquire 1, .acquire 2,
    .finish 0 (.error (.foreign "disk full")), .release 0] threeCalls = some _ := rfl
  exact ((slots_accounted threeCalls_init executed).1 backup).2

end ConcurrentExecutor

end Cronwatch.Jobs
