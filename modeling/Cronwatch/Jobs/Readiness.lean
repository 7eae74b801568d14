/-
# Jobs.Readiness -- the order of the jobs and the jobs that are ready

`topological_order` visits a name that no job has as one without dependencies, and lists it.
`ready_to_run` never returns it, so a job that depends on it waits for ever.

`RunsAll` says that all jobs become ready, whichever ready job is completed next, and that
they do so in an order of the dependencies.  Where there is an order at all it holds exactly
when every dependency of a job is a job (`runsAll_iff`).
-/
import Cronwatch.Jobs.Dependencies
import Cronwatch.Theory.Splits

namespace Cronwatch.Jobs.DependencyGraph

set_option autoImplicit false

open Cronwatch.Theory Cronwatch.Runtime Relation

universe u v

/-! ## The graph of a list of jobs -/

/-- The job of that name that counts, which is the last one. -/
def declared (jobs : List JobConfig) (name : String) : Option JobConfig :=
  lastWith (fun job => job.name = name) jobs

theorem declared_append (jobs : List JobConfig) (job : JobConfig) (name : String) :
    declared (jobs ++ [job]) name = if job.name = name then some job else declared jobs name := by
  rw [declared, lastWith_append_single, declared]
  simp only [decide_eq_true_eq]

theorem declared_isSome_iff (jobs : List JobConfig) (name : String) :
    (declared jobs name).isSome ↔ ∃ job ∈ jobs, job.name = name := by
  simp [declared, lastWith_isSome_iff]

theorem get?_fromJobs (jobs : List JobConfig) (name : String) :
    (fromJobs jobs).deps.get? name =
      (declared jobs name).map fun job => .ofList job.dependsOn := by
  induction jobs using List.reverseRecOn with
  | nil => rfl
  | append_singleton before job ih =>
      rw [fromJobs] at ih ⊢
      rw [declared_append, List.foldl_append, List.foldl_cons, List.foldl_nil, Dict.get?_set, ih]
      by_cases here : job.name = name
      · rw [if_pos here, if_pos here.symm, Option.map_some]
      · rw [if_neg here, if_neg (Ne.symm here)]

theorem mem_keys_fromJobs (jobs : List JobConfig) (name : String) :
    name ∈ (fromJobs jobs).deps.keys ↔ (declared jobs name).isSome := by
  rw [Dict.mem_keys_iff, get?_fromJobs, Option.isSome_map]

theorem dependsOn_fromJobs (jobs : List JobConfig) (a b : String) :
    (fromJobs jobs).DependsOn a b ↔ ∃ job, declared jobs a = some job ∧ b ∈ job.dependsOn := by
  rw [DependsOn, dependenciesOf, get?_fromJobs]
  cases declared jobs a with
  | none => simp
  | some job => simp

/-! ## An order that was returned -/

/-- A loop returns what it returned, where its body does. -/
theorem foldlM_returned {α : Type u} {σ ε : Type v} {f f' : σ → α → Except ε σ}
    (more : ∀ s a s', f s a = .ok s' → f' s a = .ok s') {l : List α} {s t : σ}
    (returned : l.foldlM f s = .ok t) : l.foldlM f' s = .ok t := by
  induction l generalizing s with
  | nil => exact returned
  | cons a rest ih =>
      rw [List.foldlM_cons] at returned ⊢
      obtain ⟨s', first, later⟩ := returned_of_bind returned
      rw [more s a s' first]
      exact ih later

/-- A call that returns, returns the same under a higher recursion limit. -/
theorem visit_succ (g : DependencyGraph) (limit : Nat) :
    ∀ (node : String) (st st' : VisitState), g.visit limit node st = .ok st' →
      g.visit (limit + 1) node st = .ok st' := by
  induction limit with
  | zero => exact fun node st st' returned => nomatch returned
  | succ limit ih =>
      intro node st st' returned
      rw [visit] at returned ⊢
      split at returned
      · cases returned
      · rename_i offStack
        rw [if_neg offStack]
        split at returned
        · rename_i seen
          rw [if_pos seen]
          exact returned
        · rename_i fresh
          rw [if_neg fresh]
          obtain ⟨st₁, visited, left⟩ := returned_of_bind returned
          rw [foldlM_returned (fun s dep s' => ih dep s s') visited]
          exact left

theorem topologicalOrder_mono (g : DependencyGraph) {limit limit' : Nat} (le : limit ≤ limit')
    {order : List String} (returned : g.topologicalOrder limit = .ok order) :
    g.topologicalOrder limit' = .ok order := by
  induction limit', le using Nat.le_induction with
  | base => exact returned
  | succ limit' _ ih =>
      rw [topologicalOrder] at ih ⊢
      obtain ⟨st, visited, listed⟩ := returned_of_bind ih
      rw [foldlM_returned (fun s name s' => g.visit_succ limit' name s s') visited]
      exact listed

theorem acyclic_of_order {g : DependencyGraph} {limit : Nat} {order : List String}
    (returned : g.topologicalOrder limit = .ok order) : ¬ Cyclic g.DependsOn := by
  intro cyclic
  have deep : g.names.card < max limit (g.names.card + 1) := by omega
  obtain ⟨node, raised⟩ := (g.topologicalOrder_correct _ deep).1.mpr cyclic
  rw [g.topologicalOrder_mono (le_max_left _ _) returned] at raised
  cases raised

/-! ## The jobs become ready -/

/-- Jobs that have completed one after the other, each of them ready when its turn came. -/
def ReadyOrder (g : DependencyGraph) (order : List String) : Prop :=
  ∀ before x after, order = before ++ x :: after → x ∈ g.readyToRun before.toFinset

theorem readyOrder_append_iff (g : DependencyGraph) (order : List String) (x : String) :
    g.ReadyOrder (order ++ [x]) ↔ g.ReadyOrder order ∧ x ∈ g.readyToRun order.toFinset :=
  forall_splits_append_single order x

/-- **Readiness is consistent with the dependencies**, whichever ready job comes next. -/
theorem ReadyOrder.successorsFirst {g : DependencyGraph} {order : List String}
    (ready : g.ReadyOrder order) : SuccessorsFirst g.DependsOn order := by
  induction order using List.reverseRecOn with
  | nil => exact successorsFirst_nil
  | append_singleton before x ih =>
      obtain ⟨front, next⟩ := (g.readyOrder_append_iff before x).mp ready
      obtain ⟨-, absent, complete⟩ := (g.mem_readyToRun _ x).mp next
      rw [List.mem_toFinset] at absent
      exact (ih front).append_singleton absent fun b edge => List.mem_toFinset.mp (complete b edge)

/-- The jobs of one round may complete in the order in which they are returned. -/
theorem ReadyOrder.append_ready {g : DependencyGraph} {order : List String}
    (ready : g.ReadyOrder order) {jobs : List String} (nodup : jobs.Nodup)
    (returned : ∀ x ∈ jobs, x ∈ g.readyToRun order.toFinset) : g.ReadyOrder (order ++ jobs) := by
  induction jobs using List.reverseRecOn with
  | nil => rwa [List.append_nil]
  | append_singleton before x ih =>
      obtain ⟨nodupBefore, -, apart⟩ := List.nodup_append.mp nodup
      have earlier := ih nodupBefore fun y member => returned y (List.mem_append_left _ member)
      rw [← List.append_assoc, readyOrder_append_iff]
      refine ⟨earlier, ?_⟩
      obtain ⟨isJob, absent, complete⟩ := (g.mem_readyToRun _ x).mp
        (returned x (List.mem_append_right _ List.mem_cons_self))
      rw [mem_readyToRun, List.toFinset_append]
      refine ⟨isJob, ?_, fun dep edge => Finset.mem_union_left _ (complete dep edge)⟩
      rw [Finset.mem_union, not_or, List.mem_toFinset (l := before)]
      exact ⟨absent, fun member => apart x member x List.mem_cons_self rfl⟩

/-- The rounds one after the other are such an order. -/
theorem readyOrder_rounds (g : DependencyGraph) (k : Nat) :
    g.ReadyOrder ((List.range k).flatMap g.round) ∧
      ((List.range k).flatMap g.round).toFinset = g.completedAfter k := by
  induction k with
  | zero => exact ⟨forall_splits_nil, rfl⟩
  | succ k ih =>
      obtain ⟨ready, completed⟩ := ih
      rw [List.range_succ, List.flatMap_append, List.flatMap_singleton]
      constructor
      · refine ready.append_ready (g.nodup_readyToRun _) fun x returned => ?_
        rw [completed]
        exact returned
      · rw [List.toFinset_append, completed]
        rfl

/-- All jobs complete: in the rounds, in every other order that cannot be continued, and
always with the dependencies first. -/
structure RunsAll (g : DependencyGraph) (jobs : List JobConfig) : Prop where
  rounds : ∃ k, ∀ job ∈ jobs, job.name ∈ g.completedAfter k
  orders : ∀ order, g.ReadyOrder order → g.readyToRun order.toFinset = [] →
    ∀ job ∈ jobs, job.name ∈ order
  consistent : ∀ order, g.ReadyOrder order → SuccessorsFirst g.DependsOn order

/-- Every dependency of a job that counts is a job. -/
def AllDeclared (jobs : List JobConfig) : Prop :=
  ∀ name job, declared jobs name = some job → ∀ dep ∈ job.dependsOn, ∃ other ∈ jobs, other.name = dep

theorem runnable_of_allDeclared {jobs : List JobConfig}
    (acyclic : ¬ Cyclic (fromJobs jobs).DependsOn) (closed : AllDeclared jobs) {job : JobConfig}
    (member : job ∈ jobs) : (fromJobs jobs).Runnable job.name := by
  intro y path
  refine ⟨?_, fun cycle => acyclic ⟨y, cycle⟩⟩
  rw [mem_keys_fromJobs, declared_isSome_iff]
  rcases ReflTransGen.cases_tail path with same | ⟨x, -, edge⟩
  · exact ⟨job, member, same.symm⟩
  · obtain ⟨job', last, dep⟩ := (dependsOn_fromJobs jobs x y).mp edge
    exact closed x job' last y dep

/-- **Order and readiness agree** exactly where every dependency is a job. -/
theorem runsAll_iff (jobs : List JobConfig) {limit : Nat} {order : List String}
    (returned : (fromJobs jobs).topologicalOrder limit = .ok order) :
    (fromJobs jobs).RunsAll jobs ↔ AllDeclared jobs := by
  have acyclic := acyclic_of_order returned
  constructor
  · rintro ⟨⟨k, completed⟩, -, -⟩ name job last dep needed
    have edge := (dependsOn_fromJobs jobs name dep).mpr ⟨job, last, needed⟩
    obtain ⟨job', member, rfl⟩ := (declared_isSome_iff jobs name).mp (Option.isSome_of_eq_some last)
    obtain ⟨i, -, ready⟩ := ((fromJobs jobs).mem_completedAfter_iff k job'.name).mp
      (completed job' member)
    have before := (((fromJobs jobs).mem_readyToRun _ _).mp ready).2.2 dep edge
    have isJob := List.mem_toFinset.mp ((fromJobs jobs).completedAfter_declared i before)
    rwa [mem_keys_fromJobs, declared_isSome_iff] at isJob
  · intro closed
    refine ⟨⟨_, fun job member => (fromJobs jobs).complete_of_runnable
      (runnable_of_allDeclared acyclic closed member)⟩, fun order _ stuck job member => ?_,
      fun order ready => ready.successorsFirst⟩
    have runnable := runnable_of_allDeclared acyclic closed member
    exact List.mem_toFinset.mp ((fromJobs jobs).mem_of_idle stuck runnable)

def extractJob : JobConfig where
  name := "extract"
  command := "extract"
  schedule := "0 4 * * *"

def loadJob : JobConfig where
  name := "load"
  command := "load"
  schedule := "0 5 * * *"
  dependsOn := ["extract"]

theorem runsAll_two_jobs :
    (fromJobs [loadJob, extractJob]).topologicalOrder 3 = .ok ["extract", "load"] ∧
      ((fromJobs [loadJob, extractJob]).RunsAll [loadJob, extractJob] ↔
        AllDeclared [loadJob, extractJob]) :=
  have returned : (fromJobs [loadJob, extractJob]).topologicalOrder 3 = .ok ["extract", "load"] := by
    decide
  ⟨returned, runsAll_iff _ returned⟩

/-- **The second job alone has an order**, and never becomes ready. -/
theorem runsAll_load_fails :
    (fromJobs [loadJob]).topologicalOrder 3 = .ok ["extract", "load"] ∧
      ¬ (fromJobs [loadJob]).RunsAll [loadJob] := by
  refine ⟨by decide, fun runs => ?_⟩
  have idle : (fromJobs [loadJob]).readyToRun ([] : List String).toFinset = [] := by decide
  have member := runs.orders [] forall_splits_nil idle loadJob List.mem_cons_self
  cases member

end Cronwatch.Jobs.DependencyGraph
