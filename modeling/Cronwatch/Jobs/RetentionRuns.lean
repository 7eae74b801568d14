/-
# Jobs.RetentionRuns -- retention while jobs run

Entries are recorded as jobs finish, and the retention rules are applied now and then, to one job or
to all of them.  What is removed is counted (`removed`).

For each job the store does what `Theory.Pruning` says of one list, with the rules of the policy as
`kept` (`get_run`).  So pruning in between makes no difference for what a later application leaves
(`pruned_as_once`).
-/
import Cronwatch.Jobs.Retention
import Cronwatch.Theory.Pruning
import Mathlib.Algebra.GroupWithZero.Nat

namespace Cronwatch.Jobs

set_option autoImplicit false

open Cronwatch.Theory Cronwatch.Runtime

universe u

namespace RetentionPolicy

variable {α : Type u} (finishedAt : α → DateTime) (policy : RetentionPolicy)

/-- The rules can be applied without an exception. -/
def Valid : Prop := ∀ n, policy.maxEntries = some n → 1 ≤ n

/-- The entries that are not too old. -/
def young (now : DateTime) (entries : List α) : List α :=
  match policy.maxAgeDays with
  | none => entries
  | some days => entries.filter fun e => cutoffAt now days ≤ finishedAt e

/-- What an application leaves of the entries of a job. -/
def kept (now : DateTime) (entries : List α) : List α :=
  match policy.maxEntries with
  | none => policy.young finishedAt now entries
  | some n => (policy.young finishedAt now entries).rtake n.toNat

/-! ## The rules as a pruning -/

abbrev InOrder (e e' : α) : Prop := finishedAt e ≤ finishedAt e'

theorem absorbs_young : Pruning.Absorbs (InOrder finishedAt) (policy.young finishedAt) := by
  unfold young
  cases policy.maxAgeDays with
  | none => exact Pruning.absorbs_all _
  | some days =>
      apply Pruning.absorbs_filter
      intro t t' e later kept
      rw [decide_eq_true_eq] at kept ⊢
      exact (Int.sub_le_sub_right later _).trans kept

/-- **The rules absorb** what they have removed before. -/
theorem absorbs_kept : Pruning.Absorbs (InOrder finishedAt) (policy.kept finishedAt) := by
  have aged := absorbs_young finishedAt policy
  unfold kept
  cases policy.maxEntries with
  | none => exact aged
  | some n =>
      apply aged.rtake
      · intro now entries inOrder
        unfold young
        cases policy.maxAgeDays with
        | none => rfl
        | some days => exact filter_rtake inOrder _ _
      · intro now entries more
        unfold young
        cases policy.maxAgeDays with
        | none => rfl
        | some days => exact List.filter_append ..

theorem kept_nil (now : DateTime) : policy.kept finishedAt now ([] : List α) = [] :=
  List.eq_nil_of_sublist_nil ((absorbs_kept finishedAt policy).sublist now [])

/-! ## One application -/

/-- The age rule of `apply`. -/
def aged (now : DateTime) (jobName : String) (store : EntryStore α) : Nat × EntryStore α :=
  match policy.maxAgeDays with
  | none => (0, store)
  | some days => pruneOlderThan finishedAt jobName (cutoffAt now days) store

theorem aged_spec (now : DateTime) (jobName : String) (store : EntryStore α) :
    (policy.aged finishedAt now jobName store).1 = (store.get jobName).length -
        (policy.young finishedAt now (store.get jobName)).length ∧
      ∀ job, (policy.aged finishedAt now jobName store).2.get job =
        if job = jobName then policy.young finishedAt now (store.get jobName) else store.get job := by
  unfold aged young
  cases policy.maxAgeDays with
  | none =>
      refine ⟨(Nat.sub_self _).symm, fun job => ?_⟩
      by_cases same : job = jobName
      · rw [if_pos same, same]
      · rw [if_neg same]
  | some days => exact ⟨fst_pruneOlderThan _ _ _, get_pruneOlderThan _ _ _⟩

variable {policy}

/-- **An application** leaves what is kept, and says how much it has removed. -/
theorem apply_spec (valid : policy.Valid) (now : DateTime) (jobName : String) (store : EntryStore α) :
    (policy.apply finishedAt now jobName store).1 = .ok ((store.get jobName).length -
        (policy.kept finishedAt now (store.get jobName)).length) ∧
      ∀ job, (policy.apply finishedAt now jobName store).2.get job =
        if job = jobName then policy.kept finishedAt now (store.get jobName) else store.get job := by
  obtain ⟨removed, left⟩ := aged_spec finishedAt policy now jobName store
  have here := left jobName
  rw [if_pos rfl] at here
  have eq : policy.apply finishedAt now jobName store =
      match policy.maxEntries with
      | none => (.ok (policy.aged finishedAt now jobName store).1, (policy.aged finishedAt now jobName store).2)
      | some n =>
          ((pruneExcess jobName n (policy.aged finishedAt now jobName store).2).1.map fun removed =>
              (policy.aged finishedAt now jobName store).1 + removed,
            (pruneExcess jobName n (policy.aged finishedAt now jobName store).2).2) := rfl
  rw [eq, kept]
  cases limit : policy.maxEntries with
  | none => exact ⟨congrArg Except.ok removed, left⟩
  | some n =>
      have positive := valid n limit
      have fewer := ((absorbs_young finishedAt policy).sublist now (store.get jobName)).length_le
      constructor
      · dsimp only
        rw [fst_pruneExcess positive, here, removed, length_rtake]
        refine congrArg Except.ok ?_
        dsimp only
        omega
      · intro job
        dsimp only
        rw [get_pruneExcess positive, here, left]
        by_cases same : job = jobName
        · rw [if_pos same, if_pos same]
        · rw [if_neg same, if_neg same, if_neg same]

/-- The loop of `apply_all` over jobs that have no result yet. -/
theorem applyEach_spec (valid : policy.Valid) (now : String → DateTime) {names : List String}
    (distinct : names.Nodup) (results : Dict String Nat) (store : EntryStore α)
    (new : ∀ job ∈ names, job ∉ results.keys) :
    ∃ results', (policy.applyEach finishedAt now names results store).1 = .ok results' ∧
      results'.entries = results.entries ++ names.map (fun job => (job, (store.get job).length -
        (policy.kept finishedAt (now job) (store.get job)).length)) ∧
      ∀ job, (policy.applyEach finishedAt now names results store).2.get job =
        if job ∈ names then policy.kept finishedAt (now job) (store.get job) else store.get job := by
  induction names generalizing results store with
  | nil => exact ⟨results, rfl, by simp, fun job => by simp [applyEach]⟩
  | cons first rest ih =>
      rw [List.nodup_cons] at distinct
      rw [List.forall_mem_cons] at new
      obtain ⟨removed, left⟩ := apply_spec finishedAt valid (now first) first store
      cases applied : policy.apply finishedAt (now first) first store with
      | mk outcome store' =>
          rw [applied] at removed left
          dsimp only at removed left
          subst removed
          have others : ∀ job ∈ rest, store'.get job = store.get job := by
            intro job member
            rw [left, if_neg]
            rintro rfl
            exact distinct.1 member
          obtain ⟨results', returned, entries, kept_⟩ := ih distinct.2 (results.set first _) store'
            fun job member held => by
              rcases (Dict.mem_keys_set results first _ job).mp held with rfl | before
              · exact distinct.1 member
              · exact new.2 job member before
          have added : (results.set first ((store.get first).length -
              (policy.kept finishedAt (now first) (store.get first)).length)).entries =
                results.entries ++ [(first, _)] := Dict.assign_of_not_mem _ new.1
          refine ⟨results', ?_, ?_, fun job => ?_⟩
          · rw [applyEach, applied]
            exact returned
          · rw [entries, added, List.append_assoc, List.map_cons, List.singleton_append]
            congr 2
            apply List.map_congr_left
            intro job member
            rw [others job member]
          · rw [applyEach, applied]
            dsimp only
            rw [kept_]
            by_cases same : job = first
            · subst same
              rw [if_neg distinct.1, left, if_pos rfl, if_pos List.mem_cons_self]
            · rw [left, if_neg same]
              simp only [List.mem_cons, same, false_or]

/-- **`apply_all`** does to every job what `apply` does to one, and has a count for each. -/
theorem applyAll_spec (valid : policy.Valid) (now : String → DateTime) (store : EntryStore α) :
    ∃ results, (policy.applyAll finishedAt now store).1 = .ok results ∧
      results.entries = store.data.keys.map (fun job => (job, (store.get job).length -
        (policy.kept finishedAt (now job) (store.get job)).length)) ∧
      ∀ job, (policy.applyAll finishedAt now store).2.get job =
        policy.kept finishedAt (now job) (store.get job) := by
  obtain ⟨results, returned, entries, left⟩ := applyEach_spec finishedAt valid now
    store.data.nodup_keys .empty store fun _ _ => List.not_mem_nil
  refine ⟨results, returned, entries, fun job => ?_⟩
  rw [applyAll, left]
  split
  · rfl
  · rename_i absent
    rw [Dict.mem_keys_iff, Bool.not_eq_true, Option.isSome_eq_false_iff, Option.isNone_iff_eq_none] at absent
    rw [EntryStore.get, absent, Option.getD_none, kept_nil]

/-! ## Runs -/

variable (policy)

inductive Event (α : Type u) where
  | finished (jobName : String) (entry : α)
  | applied (jobName : String) (now : DateTime)
  | appliedAll (now : String → DateTime)

/-- The store, and the counts that the applications have returned. -/
structure Retained (α : Type u) where
  store : EntryStore α := {}
  removed : List (String × Nat) := []

def step (s : Retained α) : Event α → Retained α
  | .finished jobName entry =>
      { s with store := s.store.replace jobName (s.store.get jobName ++ [entry]) }
  | .applied jobName now =>
      match policy.apply finishedAt now jobName s.store with
      | (.error _, store) => { s with store }
      | (.ok count, store) => { store, removed := s.removed ++ [(jobName, count)] }
  | .appliedAll now =>
      match policy.applyAll finishedAt now s.store with
      | (.error _, store) => { s with store }
      | (.ok results, store) => { store, removed := s.removed ++ results.entries }

def run (events : List (Event α)) : Retained α := events.foldl (policy.step finishedAt) {}

/-- What the event is for a job. -/
def Event.of (jobName : String) : Event α → Option (Pruning.Event α DateTime)
  | .finished jobName' entry => if jobName' = jobName then some (.added entry) else none
  | .applied jobName' now => if jobName' = jobName then some (.pruned now) else none
  | .appliedAll now => some (.pruned (now jobName))

/-- The entries that were recorded for a job. -/
def finished (jobName : String) (events : List (Event α)) : List α :=
  (events.filterMap (Event.of jobName)).filterMap Pruning.Event.added?

/-- The times at which the rules were applied to a job. -/
def readings (jobName : String) (events : List (Event α)) : List DateTime :=
  (events.filterMap (Event.of jobName)).filterMap Pruning.Event.time?

/-- The same without any pruning. -/
def unpruned (events : List (Event α)) : EntryStore α :=
  (RetentionPolicy.run finishedAt {} events).store

/-- How many entries of a job the counts say were removed. -/
def removedOf (jobName : String) (removed : List (String × Nat)) : Nat :=
  ((removed.filter fun count => count.1 = jobName).map Prod.snd).sum

theorem run_append_single (before : List (Event α)) (event : Event α) :
    policy.run finishedAt (before ++ [event]) = policy.step finishedAt (policy.run finishedAt before) event := by
  rw [run, List.foldl_append]
  rfl

variable {finishedAt policy}

theorem get_step (valid : policy.Valid) (s : Retained α) (event : Event α) (jobName : String) :
    (policy.step finishedAt s event).store.get jobName =
      match event.of jobName with
      | none => s.store.get jobName
      | some event => Pruning.step (policy.kept finishedAt) (s.store.get jobName) event := by
  cases event with
  | finished jobName' entry =>
      rw [step, EntryStore.get_replace, Event.of]
      by_cases same : jobName' = jobName
      · subst same
        rw [if_pos rfl, if_pos rfl]
        rfl
      · rw [if_neg (Ne.symm same), if_neg same]
  | applied jobName' now =>
      obtain ⟨removed, left⟩ := apply_spec finishedAt valid now jobName' s.store
      cases applied : policy.apply finishedAt now jobName' s.store with
      | mk outcome store =>
          rw [applied] at removed left
          dsimp only at removed left
          subst removed
          rw [step, applied, Event.of]
          dsimp only
          rw [left]
          by_cases same : jobName' = jobName
          · subst same
            rw [if_pos rfl, if_pos rfl]
            rfl
          · rw [if_neg (Ne.symm same), if_neg same]
  | appliedAll now =>
      obtain ⟨results, returned, -, left⟩ := applyAll_spec finishedAt valid now s.store
      cases applied : policy.applyAll finishedAt now s.store with
      | mk outcome store =>
          rw [applied] at returned left
          dsimp only at returned left
          subst returned
          rw [step, applied]
          exact left jobName

/-- **The entries of one job** in a run are those of a list that is pruned while it grows. -/
theorem get_run (valid : policy.Valid) (events : List (Event α)) (jobName : String) :
    (policy.run finishedAt events).store.get jobName =
      Pruning.run (policy.kept finishedAt) (events.filterMap (Event.of jobName)) := by
  induction events using List.reverseRecOn with
  | nil => rfl
  | append_singleton before event ih =>
      rw [run_append_single, get_step valid, ih, List.filterMap_append]
      cases here : event.of jobName with
      | none =>
          rw [List.filterMap_cons_none here, List.filterMap_nil, List.append_nil]
      | some event =>
          rw [List.filterMap_cons_some here, List.filterMap_nil, Pruning.run_append_single]

/-! ## What is removed -/

theorem removedOf_append (jobName : String) (removed more : List (String × Nat)) :
    removedOf jobName (removed ++ more) = removedOf jobName removed + removedOf jobName more := by
  rw [removedOf, List.filter_append, List.map_append, List.sum_append]
  rfl

theorem removedOf_single (jobName jobName' : String) (count : Nat) :
    removedOf jobName [(jobName', count)] = if jobName' = jobName then count else 0 := by
  by_cases same : jobName' = jobName
  · simp [removedOf, same]
  · simp [removedOf, same]

/-- Of counts for different jobs there is one for each. -/
theorem removedOf_map (jobName : String) (count : String → Nat) {names : List String} (distinct : names.Nodup) :
    removedOf jobName (names.map fun job => (job, count job)) =
      if jobName ∈ names then count jobName else 0 := by
  induction names with
  | nil => rfl
  | cons first rest ih =>
      rw [List.nodup_cons] at distinct
      rw [List.map_cons, ← List.singleton_append, removedOf_append, removedOf_single, ih distinct.2]
      by_cases same : first = jobName
      · subst same
        rw [if_pos rfl, if_neg distinct.1, if_pos List.mem_cons_self, Nat.add_zero]
      · rw [if_neg same, Nat.zero_add]
        simp only [List.mem_cons, Ne.symm same, false_or]

/-- **One event** counts what it removes. -/
theorem removedOf_step (valid : policy.Valid) (s : Retained α) (event : Event α) (jobName : String) :
    removedOf jobName (policy.step finishedAt s event).removed +
        ((policy.step finishedAt s event).store.get jobName).length =
      removedOf jobName s.removed + (s.store.get jobName).length + (finished jobName [event]).length := by
  have fewer : ∀ now entries, (policy.kept finishedAt now entries).length ≤ entries.length :=
    fun now entries => ((absorbs_kept finishedAt policy).sublist now entries).length_le
  cases event with
  | finished jobName' entry =>
      rw [step, EntryStore.get_replace]
      dsimp only
      by_cases same : jobName' = jobName
      · subst same
        simp [finished, Event.of, Pruning.Event.added?, Nat.add_assoc]
      · simp [finished, Event.of, same, Ne.symm same]
  | applied jobName' now =>
      obtain ⟨removed, left⟩ := apply_spec finishedAt valid now jobName' s.store
      cases applied : policy.apply finishedAt now jobName' s.store with
      | mk outcome store =>
          rw [applied] at removed left
          dsimp only at removed left
          subst removed
          rw [step, applied]
          dsimp only
          rw [left, removedOf_append, removedOf_single]
          by_cases same : jobName' = jobName
          · subst same
            have less := fewer now (s.store.get jobName')
            simp only [if_pos, finished, Event.of, List.filterMap_cons, List.filterMap_nil,
              Pruning.Event.added?, List.length_nil]
            omega
          · simp [finished, Event.of, same, Ne.symm same]
  | appliedAll now =>
      obtain ⟨results, returned, counts, left⟩ := applyAll_spec finishedAt valid now s.store
      cases applied : policy.applyAll finishedAt now s.store with
      | mk outcome store =>
          rw [applied] at returned left
          dsimp only at returned left
          subst returned
          have less := fewer (now jobName) (s.store.get jobName)
          rw [step, applied]
          dsimp only
          rw [left, removedOf_append, counts, removedOf_map jobName _ s.store.data.nodup_keys]
          simp only [finished, Event.of, List.filterMap_cons, List.filterMap_nil,
            Pruning.Event.added?, List.length_nil]
          split
          · omega
          · rename_i absent
            rw [Dict.mem_keys_iff, Bool.not_eq_true, Option.isSome_eq_false_iff, Option.isNone_iff_eq_none]
              at absent
            have none_ : s.store.get jobName = [] := by
              rw [EntryStore.get, absent, Option.getD_none]
            rw [none_, kept_nil]
            rfl

theorem removedOf_run (valid : policy.Valid) (events : List (Event α)) (jobName : String) :
    removedOf jobName (policy.run finishedAt events).removed +
      ((policy.run finishedAt events).store.get jobName).length = (finished jobName events).length := by
  induction events using List.reverseRecOn with
  | nil => rfl
  | append_singleton before event ih =>
      have split : finished jobName (before ++ [event]) = finished jobName before ++ finished jobName [event] := by
        rw [finished, List.filterMap_append, List.filterMap_append]
        rfl
      rw [run_append_single, removedOf_step valid, ih, split, List.length_append]

theorem get_unpruned (events : List (Event α)) (jobName : String) :
    (unpruned finishedAt events).get jobName = finished jobName events := by
  have valid : ({} : RetentionPolicy).Valid := fun n impossible => by cases impossible
  rw [unpruned, get_run valid]
  exact Pruning.run_of_keep_eq (kept finishedAt {}) (fun _ _ => rfl) _

/-- **Pruning now and then is pruning once.**  Where the entries of each job are recorded in the
order in which they finished, and the rules are applied at any times, every entry is in the store or
among the removed that were counted; and an application to all jobs, at times that are not before
the earlier ones, leaves of every job what it leaves of a store that was never pruned. -/
theorem pruned_as_once (finishedAt : α → DateTime) (policy : RetentionPolicy) (valid : policy.Valid)
    (events : List (Event α))
    (inOrder : ∀ jobName, (finished jobName events).Pairwise (InOrder finishedAt)) :
    let s := policy.run finishedAt events
    (∀ jobName, removedOf jobName s.removed + (s.store.get jobName).length =
      (finished jobName events).length) ∧
    ∀ now, (∀ jobName, ∀ t ∈ readings jobName events, t ≤ now jobName) → ∀ jobName,
      (policy.applyAll finishedAt now s.store).2.get jobName =
        (policy.applyAll finishedAt now (unpruned finishedAt events)).2.get jobName := by
  refine ⟨removedOf_run valid events, fun now later jobName => ?_⟩
  obtain ⟨-, -, -, left⟩ := applyAll_spec finishedAt valid now
    (policy.run finishedAt events).store
  obtain ⟨-, -, -, once⟩ := applyAll_spec finishedAt valid now
    (unpruned finishedAt events)
  rw [left, once, get_unpruned, get_run valid]
  exact (absorbs_kept finishedAt policy).keep_run (later jobName) (inOrder jobName)

/-- Two backups are kept, of at most a week. -/
theorem pruned_as_once_backup :
    let policy : RetentionPolicy := { maxAgeDays := some 7, maxEntries := some 2 }
    let day (n : Int) : DateTime := seconds (n * 86400)
    let events : List (Event DateTime) := [.finished "backup" (day 0), .finished "backup" (day 1),
      .finished "backup" (day 2), .appliedAll fun _ => day 2, .finished "backup" (day 8)]
    (policy.run id events).store.get "backup" = [day 1, day 2, day 8] ∧
      (policy.applyAll id (fun _ => day 9) (policy.run id events).store).2.get "backup" =
        (policy.applyAll id (fun _ => day 9) (unpruned id events)).2.get "backup" := by
  intro policy day events
  have valid : policy.Valid := by
    intro n limit
    cases limit
    decide
  have inOrder : ∀ jobName, (finished jobName events).Pairwise (InOrder id) := by
    intro jobName
    by_cases same : "backup" = jobName
    · subst same
      decide
    · simp only [events, finished, List.filterMap_cons, Event.of, if_neg same]
      exact .nil
  refine ⟨by decide, (pruned_as_once id policy valid events inOrder).2 (fun _ => day 9) ?_ "backup"⟩
  intro jobName t reading
  by_cases same : "backup" = jobName
  · subst same
    revert t
    decide
  · simp [events, readings, Event.of, same, Pruning.Event.time?] at reading
    subst reading
    decide

end RetentionPolicy

end Cronwatch.Jobs
