/-
# Jobs.Dependencies -- topological order and readiness of a dependency graph

`DependencyGraph` maps a job name to the names it depends on.  The map and every
set are kept in the order their iteration visits them, so one graph value is one
choice of all iteration orders and a theorem about every graph covers them all.

`visit` is the recursive closure of `topological_order`, with the three mutable
sets its calls share as explicit state and the interpreter's recursion limit as
`limit`.  `visit_spec` is what one call does: it either extends the order by names
reachable from its argument and restores the stack, or it stops at a name that lies
on a cycle.  A limit above the number of names is never reached.

`readyToRun` is iterated by `completedAfter`.
-/
import Cronwatch.Jobs.Config
import Cronwatch.Runtime.Python
import Cronwatch.Theory.Digraph
import Mathlib.Data.Finset.Union

namespace Cronwatch.Jobs

set_option autoImplicit false

open Cronwatch.Theory Cronwatch.Runtime Relation

structure DependencyGraph where
  deps : Dict String (Enumeration String) := .empty
deriving DecidableEq

/-- The state `visited`, `in_stack`, `order` shared by the nested `visit` calls. -/
structure VisitState where
  visited : Finset String := ∅
  inStack : Finset String := ∅
  order : List String := []
deriving DecidableEq

namespace VisitState

/-- `in_stack.add(node)`. -/
def enter (st : VisitState) (node : String) : VisitState :=
  { st with inStack := insert node st.inStack }

/-- `in_stack.discard(node)`, `visited.add(node)`, `order.append(node)`. -/
def leave (st : VisitState) (node : String) : VisitState where
  visited := insert node st.visited
  inStack := st.inStack.erase node
  order := st.order ++ [node]

end VisitState

namespace DependencyGraph

def fromJobs (jobs : List JobConfig) : DependencyGraph :=
  jobs.foldl (fun graph job => ⟨graph.deps.set job.name (.ofList job.dependsOn)⟩) {}

/-- `_deps.get(name, set())`, in iteration order. -/
def dependenciesOf (g : DependencyGraph) (name : String) : List String :=
  ((g.deps.get? name).getD .empty).elements

def cycleError (node : String) : PyException :=
  .dependencyCycleError s!"Dependency cycle detected involving job '{node}'"

def visit (g : DependencyGraph) : Nat → String → VisitState → Except PyException VisitState
  | 0, _, _ => .error .recursionError
  | limit + 1, node, st =>
      if node ∈ st.inStack then .error (cycleError node)
      else if node ∈ st.visited then .ok st
      else do
        let st ← (g.dependenciesOf node).foldlM (fun st dep => g.visit limit dep st) (st.enter node)
        return st.leave node

def topologicalOrder (limit : Nat) (g : DependencyGraph) : Except PyException (List String) := do
  let st ← g.deps.keys.foldlM (fun st name => g.visit limit name st) {}
  return st.order

def readyToRun (g : DependencyGraph) (completed : Finset String) : List String :=
  (g.deps.entries.filter fun entry =>
    entry.1 ∉ completed ∧ ∀ dep ∈ entry.2.elements, dep ∈ completed).map Prod.fst

/-! ## The depends-on relation -/

/-- `a` has `b` among its direct dependencies. -/
def DependsOn (g : DependencyGraph) (a b : String) : Prop := b ∈ g.dependenciesOf a

/-- Every name of the graph, as a key or as a dependency. -/
def names (g : DependencyGraph) : Finset String :=
  (g.deps.entries.flatMap fun entry => entry.1 :: entry.2.elements).toFinset

theorem dependsOn_iff (g : DependencyGraph) (a b : String) :
    g.DependsOn a b ↔ ∃ ds, (a, ds) ∈ g.deps.entries ∧ b ∈ ds.elements := by
  simp only [DependsOn, dependenciesOf, Dict.mem_entries_iff]
  cases g.deps.get? a <;> simp

theorem DependsOn.declared {g : DependencyGraph} {a b : String} (edge : g.DependsOn a b) :
    a ∈ g.deps.keys := by
  obtain ⟨ds, member, -⟩ := (g.dependsOn_iff a b).mp edge
  exact List.mem_map_of_mem member

theorem key_mem_names {g : DependencyGraph} {key : String} (declared : key ∈ g.deps.keys) :
    key ∈ g.names := by
  obtain ⟨entry, member, rfl⟩ := List.mem_map.mp declared
  simp only [names, List.mem_toFinset, List.mem_flatMap]
  exact ⟨entry, member, List.mem_cons_self⟩

theorem DependsOn.mem_names {g : DependencyGraph} {a b : String} (edge : g.DependsOn a b) :
    b ∈ g.names := by
  obtain ⟨ds, member, dep⟩ := (g.dependsOn_iff a b).mp edge
  simp only [names, List.mem_toFinset, List.mem_flatMap]
  exact ⟨(a, ds), member, List.mem_cons_of_mem _ dep⟩

/-! ## One call of `visit` -/

/-- The finished names are listed once, dependencies first, apart from the stack. -/
structure Good (g : DependencyGraph) (st : VisitState) : Prop where
  nodup : st.order.Nodup
  visited : ∀ x, x ∈ st.visited ↔ x ∈ st.order
  sorted : SuccessorsFirst g.DependsOn st.order
  apart : ∀ x ∈ st.inStack, x ∉ st.order

/-- What visiting all of `roots` may change: the order grows by names reachable from
the roots until it holds them, and the stack is restored. -/
structure Extends (g : DependencyGraph) (roots : List String) (st st' : VisitState) : Prop where
  inStack : st'.inStack = st.inStack
  grown : st.order ⊆ st'.order
  reached : ∀ x ∈ st'.order, x ∈ st.order ∨ ∃ root ∈ roots, ReflTransGen g.DependsOn root x
  finished : ∀ root ∈ roots, root ∈ st'.order

/-- The two ways in which visiting `roots` ends. -/
def Outcome (g : DependencyGraph) (roots : List String) (st : VisitState) :
    Except PyException VisitState → Prop
  | .ok st' => g.Good st' ∧ g.Extends roots st st'
  | .error e => ∃ name, e = cycleError name ∧ TransGen g.DependsOn name name

theorem Extends.cons {g : DependencyGraph} {root : String} {rest : List String}
    {st st₁ st₂ : VisitState} (head : g.Extends [root] st st₁) (tail : g.Extends rest st₁ st₂) :
    g.Extends (root :: rest) st st₂ where
  inStack := tail.inStack.trans head.inStack
  grown := fun _ member => tail.grown (head.grown member)
  reached := by
    intro x member
    rcases tail.reached x member with early | ⟨r, inRest, path⟩
    · rcases head.reached x early with old | ⟨r, isRoot, path⟩
      · exact .inl old
      · rw [List.mem_singleton] at isRoot
        exact .inr ⟨root, List.mem_cons_self, isRoot ▸ path⟩
    · exact .inr ⟨r, List.mem_cons_of_mem _ inRest, path⟩
  finished := by
    intro r member
    rcases List.mem_cons.mp member with rfl | inRest
    · exact tail.grown (head.finished r List.mem_cons_self)
    · exact tail.finished r inRest

/-- The loop over several roots, given what each visit under this stack does. -/
theorem visitAll_spec (g : DependencyGraph) (limit : Nat) (stack : Finset String) :
    ∀ (roots : List String) (st : VisitState), g.Good st → st.inStack = stack →
      (∀ root ∈ roots, ∀ st, g.Good st → st.inStack = stack →
        g.Outcome [root] st (g.visit limit root st)) →
      g.Outcome roots st (roots.foldlM (fun st root => g.visit limit root st) st)
  | [], st, good, _, _ => by
      refine ⟨good, rfl, fun _ member => member, fun x member => .inl member, ?_⟩
      simp
  | root :: rest, st, good, same, each => by
      have first := each root List.mem_cons_self st good same
      rw [List.foldlM_cons]
      cases run : g.visit limit root st with
      | error e =>
          rw [run] at first
          exact first
      | ok st₁ =>
          rw [run] at first
          obtain ⟨good₁, head⟩ := first
          have later := visitAll_spec g limit stack rest st₁ good₁ (head.inStack.trans same)
            fun r inRest => each r (List.mem_cons_of_mem _ inRest)
          simp only [Bind.bind, Except.bind]
          cases loop : rest.foldlM (fun st root => g.visit limit root st) st₁ with
          | error e =>
              rw [loop] at later
              exact later
          | ok st₂ =>
              rw [loop] at later
              exact ⟨later.1, head.cons later.2⟩

/-- The state in which the dependencies of a fresh `node` are visited. -/
theorem Good.enter {g : DependencyGraph} {st : VisitState} (good : g.Good st) {node : String}
    (fresh : node ∉ st.visited) : g.Good (st.enter node) where
  nodup := good.nodup
  visited := good.visited
  sorted := good.sorted
  apart := by
    intro x member
    rcases Finset.mem_insert.mp member with rfl | old
    · exact fun listed => fresh ((good.visited x).mpr listed)
    · exact good.apart x old

/-- Finishing `node` after all its dependencies. -/
theorem Good.leave {g : DependencyGraph} {st : VisitState} (good : g.Good st) {node : String}
    (stacked : node ∈ st.inStack) (complete : ∀ dep, g.DependsOn node dep → dep ∈ st.order) :
    g.Good (st.leave node) := by
  have fresh : node ∉ st.order := good.apart node stacked
  refine ⟨?_, fun x => ?_, good.sorted.append_singleton fresh complete, fun x member => ?_⟩
  · exact List.nodup_append.mpr ⟨good.nodup, List.nodup_singleton node, by
      intro a old b last same
      exact fresh (List.mem_singleton.mp last ▸ same ▸ old)⟩
  · simp [VisitState.leave, good.visited x, or_comm]
  · obtain ⟨ne, old⟩ := Finset.mem_erase.mp member
    simpa [VisitState.leave, ne] using good.apart x old

/-- Entering a fresh `node`, visiting its dependencies and leaving it extends the
order by `node` and what its dependencies reach. -/
theorem Extends.leave {g : DependencyGraph} {node : String} {st st₁ : VisitState}
    (fresh : node ∉ st.inStack)
    (inner : g.Extends (g.dependenciesOf node) (st.enter node) st₁) :
    g.Extends [node] st (st₁.leave node) where
  inStack := by
    simp only [VisitState.leave, inner.inStack, VisitState.enter]
    exact Finset.erase_insert fresh
  grown := fun _ member => List.mem_append_left _ (inner.grown member)
  reached := by
    intro x member
    rcases List.mem_append.mp member with early | last
    · rcases inner.reached x early with old | ⟨dep, edge, path⟩
      · exact .inl old
      · exact .inr ⟨node, List.mem_singleton_self node, path.head edge⟩
    · rw [List.mem_singleton] at last
      exact .inr ⟨node, List.mem_singleton_self node, last ▸ .refl⟩
  finished := by
    intro root member
    rw [List.mem_singleton] at member
    simp [VisitState.leave, member]

/-- A name that enters the stack leaves one name fewer off it. -/
theorem card_off_stack_lt {names stack : Finset String} {node : String} (named : node ∈ names)
    (fresh : node ∉ stack) : (names \ insert node stack).card < (names \ stack).card := by
  rw [Finset.sdiff_insert]
  exact Finset.card_erase_lt_of_mem (Finset.mem_sdiff.mpr ⟨named, fresh⟩)

/-- **One call of `visit`.**  Every name on the stack reaches `node`, and the limit
exceeds the number of names that are not on the stack. -/
theorem visit_spec (g : DependencyGraph) (limit : Nat) (node : String) (st : VisitState)
    (good : g.Good st) (path : ∀ s ∈ st.inStack, TransGen g.DependsOn s node)
    (named : node ∈ g.names) (deep : (g.names \ st.inStack).card < limit) :
    g.Outcome [node] st (g.visit limit node st) := by
  induction limit generalizing node st with
  | zero => omega
  | succ limit ih =>
      rw [visit]
      split
      · rename_i stacked
        exact ⟨node, rfl, path node stacked⟩
      rename_i fresh
      split
      · rename_i seen
        have listed : node ∈ st.order := (good.visited node).mp seen
        exact ⟨good, rfl, fun _ member => member, fun _ member => .inl member, by simpa using listed⟩
      rename_i unseen
      have inner : g.Outcome (g.dependenciesOf node) (st.enter node)
          ((g.dependenciesOf node).foldlM (fun st dep => g.visit limit dep st) (st.enter node)) := by
        refine visitAll_spec g limit (st.enter node).inStack _ _ (good.enter unseen) rfl ?_
        intro dep edge st₁ good₁ same
        refine ih dep st₁ good₁ (fun s member => ?_) (DependsOn.mem_names edge) ?_
        · rw [same] at member
          rcases Finset.mem_insert.mp member with rfl | old
          · exact .single edge
          · exact (path s old).tail edge
        · rw [same]
          exact lt_of_lt_of_le (card_off_stack_lt named fresh) (Nat.lt_succ_iff.mp deep)
      simp only [Bind.bind, Except.bind]
      cases run : (g.dependenciesOf node).foldlM (fun st dep => g.visit limit dep st)
          (st.enter node) with
      | error e =>
          rw [run] at inner
          exact inner
      | ok st₁ =>
          rw [run] at inner
          obtain ⟨good₁, extended⟩ := inner
          have stacked : node ∈ st₁.inStack := by
            rw [extended.inStack]
            exact Finset.mem_insert_self node st.inStack
          exact ⟨good₁.leave stacked extended.finished, extended.leave fresh⟩

/-! ## The whole run -/

theorem good_start (g : DependencyGraph) : g.Good {} where
  nodup := List.nodup_nil
  visited := by simp
  sorted := successorsFirst_nil
  apart := by simp

theorem topologicalOrder_outcome (g : DependencyGraph) (limit : Nat) (deep : g.names.card < limit) :
    g.Outcome g.deps.keys {} (g.deps.keys.foldlM (fun st name => g.visit limit name st) {}) := by
  refine visitAll_spec g limit ∅ _ {} g.good_start rfl ?_
  intro root declared st good same
  refine g.visit_spec limit root st good ?_ (key_mem_names declared) ?_
  · simp [same]
  · simpa [same] using deep

/-- **The order of a finite dependency graph.**  With a recursion limit above the
number of names, `topologicalOrder` raises the cycle error exactly for a cyclic
graph, and otherwise lists every key and every name reachable from a key once, each
dependency strictly before the job that needs it. -/
theorem topologicalOrder_correct (g : DependencyGraph) (limit : Nat)
    (deep : g.names.card < limit) :
    ((∃ node, g.topologicalOrder limit = .error (cycleError node)) ↔ Cyclic g.DependsOn) ∧
      (¬ Cyclic g.DependsOn → ∃ order, g.topologicalOrder limit = .ok order ∧ order.Nodup ∧
        (∀ x, x ∈ order ↔ ∃ key ∈ g.deps.keys, ReflTransGen g.DependsOn key x) ∧
        ∀ a b, g.DependsOn a b → order.idxOf b < order.idxOf a) := by
  have outcome := g.topologicalOrder_outcome limit deep
  simp only [topologicalOrder, Bind.bind, Except.bind]
  cases run : g.deps.keys.foldlM (fun st name => g.visit limit name st) {} with
  | error e =>
      rw [run] at outcome
      obtain ⟨name, rfl, cycle⟩ := outcome
      have cyclic : Cyclic g.DependsOn := ⟨name, cycle⟩
      exact ⟨⟨fun _ => cyclic, fun _ => ⟨name, rfl⟩⟩, fun acyclic => absurd cyclic acyclic⟩
  | ok st =>
      rw [run] at outcome
      obtain ⟨good, extended⟩ := outcome
      have edges : ∀ a b, g.DependsOn a b → st.order.idxOf b < st.order.idxOf a :=
        fun a b edge => good.sorted a (extended.finished a edge.declared) b edge
      refine ⟨⟨fun raised => ?_, fun cyclic => ?_⟩, fun _ => ⟨st.order, rfl, good.nodup, ?_, edges⟩⟩
      · obtain ⟨node, impossible⟩ := raised
        cases impossible
      · obtain ⟨a, cycle⟩ := cyclic
        obtain ⟨b, edge, -⟩ := TransGen.head'_iff.mp cycle
        exact absurd cycle (good.sorted.not_cyclic_at (extended.finished a edge.declared))
      · intro x
        constructor
        · intro member
          rcases extended.reached x member with old | reached
          · simp at old
          · exact reached
        · rintro ⟨key, declared, path⟩
          exact good.sorted.mem_of_reflTransGen (extended.finished key declared) path

/-- `report` after `extract` and `load`, `load` after `extract`. -/
def pipeline : DependencyGraph :=
  fromJobs [{ name := "report", command := "report", schedule := "0 6 * * *",
              dependsOn := ["extract", "load"] },
    { name := "load", command := "load", schedule := "0 5 * * *", dependsOn := ["extract"] }]

/-- The order of a small pipeline whose first job is named only as a dependency. -/
theorem topologicalOrder_pipeline :
    pipeline.topologicalOrder 4 = .ok ["extract", "load", "report"] ∧
      ¬ Cyclic pipeline.DependsOn := by
  have computed : pipeline.topologicalOrder 4 = .ok ["extract", "load", "report"] := by decide
  refine ⟨computed, fun cyclic => ?_⟩
  obtain ⟨node, raised⟩ := (pipeline.topologicalOrder_correct 4 (by decide)).1.mpr cyclic
  rw [computed] at raised
  cases raised

/-! ## Rounds of `readyToRun` -/

theorem mem_readyToRun (g : DependencyGraph) (completed : Finset String) (x : String) :
    x ∈ g.readyToRun completed ↔
      x ∈ g.deps.keys ∧ x ∉ completed ∧ ∀ dep, g.DependsOn x dep → dep ∈ completed := by
  have sameDeps : ∀ ds, (x, ds) ∈ g.deps.entries → ∀ dep, g.DependsOn x dep ↔ dep ∈ ds.elements := by
    intro ds member dep
    rw [Dict.mem_entries_iff] at member
    simp [DependsOn, dependenciesOf, member]
  simp only [readyToRun, List.mem_map, List.mem_filter, decide_eq_true_eq]
  constructor
  · rintro ⟨⟨name, ds⟩, ⟨member, absent, satisfied⟩, rfl⟩
    exact ⟨List.mem_map_of_mem member, absent,
      fun dep edge => satisfied dep ((sameDeps ds member dep).mp edge)⟩
  · rintro ⟨declared, absent, satisfied⟩
    obtain ⟨⟨name, ds⟩, member, rfl⟩ := List.mem_map.mp declared
    exact ⟨(name, ds), ⟨member, absent,
      fun dep inside => satisfied dep ((sameDeps ds member dep).mpr inside)⟩, rfl⟩

theorem nodup_readyToRun (g : DependencyGraph) (completed : Finset String) :
    (g.readyToRun completed).Nodup :=
  g.deps.keysNodup.sublist (List.filter_sublist.map Prod.fst)

/-- `C(k)`: the names returned by the first `k` rounds, from the empty set. -/
def completedAfter (g : DependencyGraph) : Nat → Finset String
  | 0 => ∅
  | k + 1 => g.completedAfter k ∪ (g.readyToRun (g.completedAfter k)).toFinset

/-- The names returned by the round that starts from `C(k)`. -/
def round (g : DependencyGraph) (k : Nat) : List String := g.readyToRun (g.completedAfter k)

theorem mem_completedAfter_succ (g : DependencyGraph) (k : Nat) (x : String) :
    x ∈ g.completedAfter (k + 1) ↔ x ∈ g.completedAfter k ∨ x ∈ g.round k := by
  simp [completedAfter, round]

theorem mem_completedAfter_iff (g : DependencyGraph) (k : Nat) (x : String) :
    x ∈ g.completedAfter k ↔ ∃ i < k, x ∈ g.round i := by
  induction k with
  | zero => simp [completedAfter]
  | succ k ih =>
      rw [mem_completedAfter_succ, ih]
      constructor
      · rintro (⟨i, before, returned⟩ | now)
        · exact ⟨i, by omega, returned⟩
        · exact ⟨k, by omega, now⟩
      · rintro ⟨i, before, returned⟩
        rcases Nat.lt_succ_iff_lt_or_eq.mp before with earlier | rfl
        · exact .inl ⟨i, earlier, returned⟩
        · exact .inr returned

theorem completedAfter_mono (g : DependencyGraph) {i j : Nat} (le : i ≤ j) :
    g.completedAfter i ⊆ g.completedAfter j := by
  intro x member
  rw [mem_completedAfter_iff] at member ⊢
  obtain ⟨k, before, returned⟩ := member
  exact ⟨k, by omega, returned⟩

theorem completedAfter_declared (g : DependencyGraph) (k : Nat) :
    g.completedAfter k ⊆ g.deps.keys.toFinset := by
  intro x member
  obtain ⟨i, -, returned⟩ := (g.mem_completedAfter_iff k x).mp member
  exact List.mem_toFinset.mpr ((g.mem_readyToRun _ x).mp returned).1

/-- Rounds are pairwise disjoint: a returned name is complete from then on. -/
theorem round_disjoint (g : DependencyGraph) {i j : Nat} (before : i < j) :
    (g.round i).Disjoint (g.round j) := by
  intro x early late
  have complete : x ∈ g.completedAfter j := (g.mem_completedAfter_iff j x).mpr ⟨i, before, early⟩
  exact ((g.mem_readyToRun _ x).mp late).2.1 complete

/-- Unless some round has returned nothing, `C(k)` holds at least `k` names. -/
theorem card_completedAfter (g : DependencyGraph) (k : Nat) :
    (∃ i < k, g.round i = []) ∨ k ≤ (g.completedAfter k).card := by
  induction k with
  | zero => simp
  | succ k ih =>
      rcases ih with ⟨i, before, idle⟩ | grown
      · exact .inl ⟨i, by omega, idle⟩
      cases returned : g.round k with
      | nil => exact .inl ⟨k, by omega, returned⟩
      | cons x rest =>
          right
          have now : x ∈ g.round k := returned ▸ List.mem_cons_self
          have strict : g.completedAfter k ⊂ g.completedAfter (k + 1) := by
            refine Finset.ssubset_iff_subset_ne.mpr ⟨g.completedAfter_mono (by omega), fun same => ?_⟩
            have complete := (g.mem_completedAfter_succ k x).mpr (.inr now)
            rw [← same] at complete
            exact ((g.mem_readyToRun _ x).mp now).2.1 complete
          have := Finset.card_lt_card strict
          omega

theorem completedAfter_of_idle (g : DependencyGraph) {i : Nat} (idle : g.round i = []) :
    ∀ k, i ≤ k → g.completedAfter k = g.completedAfter i := by
  intro k le
  induction k, le using Nat.le_induction with
  | base => rfl
  | succ k _ ih =>
      have same : g.round k = [] := by rw [round, ih]; exact idle
      ext x
      rw [mem_completedAfter_succ, same, ih]
      simp

/-- As many rounds as there are declared jobs reach the fixpoint. -/
theorem completedAfter_stable (g : DependencyGraph) {k : Nat} (le : g.deps.keys.length ≤ k) :
    g.completedAfter k = g.completedAfter g.deps.keys.length := by
  have idle : ∃ i ≤ g.deps.keys.length, g.round i = [] := by
    rcases g.card_completedAfter (g.deps.keys.length + 1) with ⟨i, before, idle⟩ | grown
    · exact ⟨i, by omega, idle⟩
    · have bounded := Finset.card_le_card (g.completedAfter_declared (g.deps.keys.length + 1))
      rw [List.toFinset_card_of_nodup g.deps.nodup_keys] at bounded
      omega
  obtain ⟨i, within, idle⟩ := idle
  rw [g.completedAfter_of_idle idle k (within.trans le), g.completedAfter_of_idle idle _ within]

/-- Everything a returned job reaches was complete before its round. -/
theorem round_reaches (g : DependencyGraph) (k : Nat) :
    ∀ x ∈ g.round k, ∀ y, TransGen g.DependsOn x y → y ∈ g.completedAfter k := by
  induction k using Nat.strongRecOn with
  | ind k ih =>
      intro x returned y path
      obtain ⟨dep, edge, rest⟩ := TransGen.head'_iff.mp path
      have complete := ((g.mem_readyToRun _ x).mp returned).2.2 dep edge
      rcases reflTransGen_iff_eq_or_transGen.mp rest with rfl | further
      · exact complete
      · obtain ⟨i, before, early⟩ := (g.mem_completedAfter_iff k dep).mp complete
        exact g.completedAfter_mono before.le (ih i before dep early y further)

/-- From `x` neither an undeclared name nor a cycle can be reached. -/
def Runnable (g : DependencyGraph) (x : String) : Prop :=
  ∀ y, ReflTransGen g.DependsOn x y → y ∈ g.deps.keys ∧ ¬ TransGen g.DependsOn y y

theorem runnable_of_round (g : DependencyGraph) {k : Nat} {x : String} (returned : x ∈ g.round k) :
    g.Runnable x := by
  have noCycle : ∀ i, ∀ y ∈ g.round i, y ∈ g.deps.keys ∧ ¬ TransGen g.DependsOn y y := by
    intro i y now
    obtain ⟨declared, absent, -⟩ := (g.mem_readyToRun _ y).mp now
    exact ⟨declared, fun cycle => absent (g.round_reaches i y now y cycle)⟩
  intro y path
  rcases reflTransGen_iff_eq_or_transGen.mp path with rfl | proper
  · exact noCycle k y returned
  · obtain ⟨i, -, early⟩ := (g.mem_completedAfter_iff k y).mp (g.round_reaches k x returned y proper)
    exact noCycle i y early

/-- Where no job is ready, the runnable ones have completed. -/
theorem mem_of_idle (g : DependencyGraph) {completed : Finset String}
    (idle : g.readyToRun completed = []) {x : String} (runnable : g.Runnable x) : x ∈ completed := by
  have finite : {y | ReflTransGen g.DependsOn x y}.Finite :=
    g.deps.keys.toFinset.finite_toSet.subset fun y path => by
      simpa using (runnable y path).1
  refine acyclic_induction (P := fun y => y ∈ completed) finite
    (fun a path b edge => ReflTransGen.tail path edge) (fun a path => (runnable a path).2) ?_ x .refl
  intro y path complete
  by_contra absent
  have returned := (g.mem_readyToRun completed y).mpr ⟨(runnable y path).1, absent, complete⟩
  rw [idle] at returned
  cases returned

theorem complete_of_runnable (g : DependencyGraph) {x : String} (runnable : g.Runnable x) :
    x ∈ g.completedAfter g.deps.keys.length := by
  refine g.mem_of_idle (List.eq_nil_iff_forall_not_mem.mpr fun y returned => ?_) runnable
  have later := (g.mem_completedAfter_succ _ y).mpr (.inr returned)
  rw [g.completedAfter_stable (Nat.le_succ _)] at later
  exact ((g.mem_readyToRun _ y).mp returned).2.1 later

/-- **The fixpoint of `readyToRun`.**  The rounds are stable after as many as there
are declared jobs, return no job twice, return a job only after all its
dependencies, and complete exactly the declared jobs from which neither an
undeclared name nor a cycle can be reached. -/
theorem readyToRun_fixpoint (g : DependencyGraph) :
    (∀ k, g.deps.keys.length ≤ k → g.completedAfter k = g.completedAfter g.deps.keys.length) ∧
      (∀ k, (g.round k).Nodup) ∧ (∀ i j, i ≠ j → (g.round i).Disjoint (g.round j)) ∧
      (∀ k, ∀ x ∈ g.round k, ∀ dep, g.DependsOn x dep → ∃ i < k, dep ∈ g.round i) ∧
      ∀ x, x ∈ g.completedAfter g.deps.keys.length ↔
        x ∈ g.deps.keys ∧
          ¬ ∃ y, ReflTransGen g.DependsOn x y ∧ (y ∉ g.deps.keys ∨ TransGen g.DependsOn y y) := by
  refine ⟨fun k le => g.completedAfter_stable le, fun k => g.nodup_readyToRun _, ?_, ?_, fun x => ?_⟩
  · intro i j ne
    rcases Nat.lt_or_gt_of_ne ne with before | after
    · exact g.round_disjoint before
    · exact (g.round_disjoint after).symm
  · intro k x returned dep edge
    exact (g.mem_completedAfter_iff k dep).mp (((g.mem_readyToRun _ x).mp returned).2.2 dep edge)
  · have blocked : (¬ ∃ y, ReflTransGen g.DependsOn x y ∧
        (y ∉ g.deps.keys ∨ TransGen g.DependsOn y y)) ↔ g.Runnable x := by
      simp only [Runnable, not_exists, not_and, not_or, not_not]
    rw [blocked]
    constructor
    · intro complete
      obtain ⟨i, -, returned⟩ := (g.mem_completedAfter_iff _ x).mp complete
      exact ⟨((g.mem_readyToRun _ x).mp returned).1, g.runnable_of_round returned⟩
    · exact fun runnable => g.complete_of_runnable runnable.2

end DependencyGraph

end Cronwatch.Jobs
