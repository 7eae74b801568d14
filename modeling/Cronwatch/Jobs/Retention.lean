/-
# Jobs.Retention -- dropping old and surplus entries

The store is what `retention.py` uses of one: `get` returns the entries of a job in order,
and assigning to `_data[job]` replaces them.  `prune_older_than` keeps the entries from a
cutoff on, `prune_excess` the last ones of them.

`rules_compose`: of entries in the order in which they finished, both rules keep an end
piece, so that the order of the rules makes no difference (`filter_rtake`).
-/
import Mathlib.Data.List.DropRight
import Cronwatch.Runtime.Python
import Cronwatch.Theory.Dict

namespace Cronwatch.Jobs

set_option autoImplicit false

open Cronwatch.Theory Cronwatch.Runtime

universe u

structure EntryStore (α : Type u) where
  data : Dict String (List α) := .empty

namespace EntryStore

variable {α : Type u}

def get (jobName : String) (store : EntryStore α) : List α :=
  (store.data.get? jobName).getD []

/-- `store._data[job_name] = entries` and `store._flush()`. -/
def replace (jobName : String) (entries : List α) (store : EntryStore α) : EntryStore α where
  data := store.data.set jobName entries

@[simp] theorem get_replace (jobName : String) (entries : List α) (store : EntryStore α)
    (job : String) : (store.replace jobName entries).get job =
      if job = jobName then entries else store.get job := by
  rw [get, replace, Dict.get?_set]
  split <;> rfl

end EntryStore

section Rules

variable {α : Type u} (finishedAt : α → DateTime)

/-- The number of entries removed, and the store without them. -/
def pruneOlderThan (jobName : String) (cutoff : DateTime) (store : EntryStore α) :
    Nat × EntryStore α :=
  let entries := store.get jobName
  let kept := entries.filter fun e => cutoff ≤ finishedAt e
  let removed := entries.length - kept.length
  if removed = 0 then (removed, store) else (removed, store.replace jobName kept)

def pruneExcess (jobName : String) (maxEntries : Int) (store : EntryStore α) :
    Except PyException Nat × EntryStore α :=
  if maxEntries ≤ 0 then
    (.error (.valueError "max_entries must be a positive integer"), store)
  else
    let entries := store.get jobName
    if entries.length ≤ maxEntries then (.ok 0, store)
    else
      let kept := entries.rtake maxEntries.toNat
      (.ok (entries.length - kept.length), store.replace jobName kept)

structure RetentionPolicy where
  maxAgeDays : Option Int := none
  maxEntries : Option Int := none

namespace RetentionPolicy

/-- `now - timedelta(days=days)`. -/
def cutoffAt (now : DateTime) (days : Int) : DateTime := now - seconds (days * 86400)

/-- The age rule, then the count rule; what the first has removed stays removed if the
second raises. -/
def apply (now : DateTime) (jobName : String) (policy : RetentionPolicy) (store : EntryStore α) :
    Except PyException Nat × EntryStore α :=
  let aged := match policy.maxAgeDays with
    | none => (0, store)
    | some days => pruneOlderThan finishedAt jobName (cutoffAt now days) store
  match policy.maxEntries with
  | none => (.ok aged.1, aged.2)
  | some maxEntries =>
      let counted := pruneExcess jobName maxEntries aged.2
      (counted.1.map fun removed => aged.1 + removed, counted.2)

/-- The loop of `apply_all`, each job at its own reading of the clock. -/
def applyEach (now : String → DateTime) (policy : RetentionPolicy) :
    List String → Dict String Nat → EntryStore α →
      Except PyException (Dict String Nat) × EntryStore α
  | [], results, store => (.ok results, store)
  | jobName :: rest, results, store =>
      match policy.apply finishedAt (now jobName) jobName store with
      | (.error e, store) => (.error e, store)
      | (.ok removed, store) => policy.applyEach now rest (results.set jobName removed) store

def applyAll (now : String → DateTime) (policy : RetentionPolicy) (store : EntryStore α) :
    Except PyException (Dict String Nat) × EntryStore α :=
  policy.applyEach finishedAt now store.data.keys .empty store

end RetentionPolicy

/-- Both rules, the age first. -/
def ageThenCount (jobName : String) (cutoff : DateTime) (maxEntries : Int) (store : EntryStore α) :
    Except PyException Nat × EntryStore α :=
  let aged := pruneOlderThan finishedAt jobName cutoff store
  let counted := pruneExcess jobName maxEntries aged.2
  (counted.1.map fun removed => aged.1 + removed, counted.2)

/-- Both rules, the count first. -/
def countThenAge (jobName : String) (cutoff : DateTime) (maxEntries : Int) (store : EntryStore α) :
    Except PyException Nat × EntryStore α :=
  let counted := pruneExcess jobName maxEntries store
  let aged := pruneOlderThan finishedAt jobName cutoff counted.2
  (counted.1.map fun removed => removed + aged.1, aged.2)

/-! ## One rule -/

variable {finishedAt}

theorem fst_pruneOlderThan (jobName : String) (cutoff : DateTime) (store : EntryStore α) :
    (pruneOlderThan finishedAt jobName cutoff store).1 = (store.get jobName).length -
      ((store.get jobName).filter fun e => cutoff ≤ finishedAt e).length := by
  rw [pruneOlderThan]
  split <;> rfl

theorem get_pruneOlderThan (jobName : String) (cutoff : DateTime) (store : EntryStore α)
    (job : String) : (pruneOlderThan finishedAt jobName cutoff store).2.get job =
      if job = jobName then (store.get jobName).filter fun e => cutoff ≤ finishedAt e
      else store.get job := by
  rw [pruneOlderThan]
  split
  · rename_i none_
    split
    · rename_i same
      subst same
      have sub := List.filter_sublist (p := fun e => decide (cutoff ≤ finishedAt e))
        (l := store.get job)
      exact (sub.eq_of_length_le (by omega)).symm
    · rfl
  · exact EntryStore.get_replace ..

/-- Nothing too old is left alone. -/
theorem pruneOlderThan_of_all {jobName : String} {cutoff : DateTime} {store : EntryStore α}
    (young : ∀ e ∈ store.get jobName, cutoff ≤ finishedAt e) :
    pruneOlderThan finishedAt jobName cutoff store = (0, store) := by
  have all : ((store.get jobName).filter fun e => cutoff ≤ finishedAt e) = store.get jobName :=
    List.filter_eq_self.mpr fun e member => decide_eq_true (young e member)
  rw [pruneOlderThan, all]
  simp

theorem pruneExcess_of_le {jobName : String} {maxEntries : Int} {store : EntryStore α}
    (positive : 1 ≤ maxEntries) (few : (store.get jobName).length ≤ maxEntries) :
    pruneExcess jobName maxEntries store = (.ok 0, store) := by
  rw [pruneExcess, if_neg (by omega), if_pos few]

theorem rtake_of_length_le {n : Nat} {l : List α} (few : l.length ≤ n) : l.rtake n = l := by
  rw [List.rtake, Nat.sub_eq_zero_of_le few, List.drop_zero]

theorem length_rtake (n : Nat) (l : List α) : (l.rtake n).length = min n l.length := by
  rw [List.rtake, List.length_drop]
  omega

theorem fst_pruneExcess {maxEntries : Int} (positive : 1 ≤ maxEntries) (jobName : String)
    (store : EntryStore α) : (pruneExcess jobName maxEntries store).1 =
      .ok ((store.get jobName).length - ((store.get jobName).rtake maxEntries.toNat).length) := by
  rw [pruneExcess, if_neg (by omega)]
  dsimp only
  split
  · rename_i few
    rw [rtake_of_length_le (by omega), Nat.sub_self]
  · rfl

theorem get_pruneExcess {maxEntries : Int} (positive : 1 ≤ maxEntries) (jobName : String)
    (store : EntryStore α) (job : String) : (pruneExcess jobName maxEntries store).2.get job =
      if job = jobName then (store.get jobName).rtake maxEntries.toNat else store.get job := by
  rw [pruneExcess, if_neg (by omega)]
  dsimp only
  split
  · rename_i few
    rw [rtake_of_length_le (by omega)]
    split
    · rename_i same
      rw [same]
    · rfl
  · exact EntryStore.get_replace ..

/-! ## Both rules -/

/-- Entries in order: first those that are too old, then those that are not. -/
theorem exists_split {entries : List α}
    (inOrder : entries.Pairwise fun e e' => finishedAt e ≤ finishedAt e') (cutoff : DateTime) :
    ∃ old young, entries = old ++ young ∧ (∀ e ∈ old, ¬ cutoff ≤ finishedAt e) ∧
      ∀ e ∈ young, cutoff ≤ finishedAt e := by
  induction entries with
  | nil => exact ⟨[], [], rfl, by simp, by simp⟩
  | cons e rest ih =>
      rw [List.pairwise_cons] at inOrder
      by_cases reached : cutoff ≤ finishedAt e
      · refine ⟨[], e :: rest, rfl, by simp, List.forall_mem_cons.mpr ⟨reached, ?_⟩⟩
        exact fun e' member => reached.trans (inOrder.1 e' member)
      · obtain ⟨old, young, rfl, olds, youngs⟩ := ih inOrder.2
        exact ⟨e :: old, young, rfl, List.forall_mem_cons.mpr ⟨reached, olds⟩, youngs⟩

/-- **Of entries in order**, the last ones that are young are the last of the young ones. -/
theorem filter_rtake {entries : List α}
    (inOrder : entries.Pairwise fun e e' => finishedAt e ≤ finishedAt e') (cutoff : DateTime)
    (n : Nat) :
    ((entries.rtake n).filter fun e => cutoff ≤ finishedAt e) =
      (entries.filter fun e => cutoff ≤ finishedAt e).rtake n := by
  obtain ⟨old, young, rfl, olds, youngs⟩ := exists_split inOrder cutoff
  have none_ : ∀ m, ((old.drop m).filter fun e => cutoff ≤ finishedAt e) = [] := fun m =>
    List.filter_eq_nil_iff.mpr fun e member => by simpa using olds e (List.mem_of_mem_drop member)
  have all : ∀ m, ((young.drop m).filter fun e => cutoff ≤ finishedAt e) = young.drop m := fun m =>
    List.filter_eq_self.mpr fun e member => by simpa using youngs e (List.mem_of_mem_drop member)
  have noOld := none_ 0
  have allYoung := all 0
  rw [List.drop_zero] at noOld allYoung
  rw [List.rtake, List.drop_append, List.filter_append, none_, all, List.nil_append,
    List.filter_append, noOld, allYoung, List.nil_append, List.rtake, List.length_append]
  congr 1
  omega

/-- What the two rules have to do with each other. -/
structure RulesCompose (finishedAt : α → DateTime) (store : EntryStore α) (jobName : String)
    (cutoff : DateTime) (maxEntries : Int) : Prop where
  kept : (ageThenCount finishedAt jobName cutoff maxEntries store).2.get jobName =
    let young := (store.get jobName).filter fun e => cutoff ≤ finishedAt e
    young.drop (young.length - min maxEntries.toNat young.length)
  commute : (countThenAge finishedAt jobName cutoff maxEntries store).2.get jobName =
    (ageThenCount finishedAt jobName cutoff maxEntries store).2.get jobName
  total : ∃ removed, (ageThenCount finishedAt jobName cutoff maxEntries store).1 = .ok removed ∧
    removed + ((ageThenCount finishedAt jobName cutoff maxEntries store).2.get jobName).length =
      (store.get jobName).length
  totalSwapped : (countThenAge finishedAt jobName cutoff maxEntries store).1 =
    (ageThenCount finishedAt jobName cutoff maxEntries store).1
  again : ageThenCount finishedAt jobName cutoff maxEntries
      (ageThenCount finishedAt jobName cutoff maxEntries store).2 =
    (.ok 0, (ageThenCount finishedAt jobName cutoff maxEntries store).2)
  againSwapped : countThenAge finishedAt jobName cutoff maxEntries
      (countThenAge finishedAt jobName cutoff maxEntries store).2 =
    (.ok 0, (countThenAge finishedAt jobName cutoff maxEntries store).2)
  others : ∀ job, job ≠ jobName →
    (ageThenCount finishedAt jobName cutoff maxEntries store).2.get job = store.get job ∧
      (countThenAge finishedAt jobName cutoff maxEntries store).2.get job = store.get job
  applied : ∀ now days, RetentionPolicy.cutoffAt now days = cutoff →
    ({ maxAgeDays := some days, maxEntries := some maxEntries } : RetentionPolicy).apply
        finishedAt now jobName store =
      ageThenCount finishedAt jobName cutoff maxEntries store

variable (finishedAt)

theorem get_ageThenCount {maxEntries : Int} (positive : 1 ≤ maxEntries) (jobName : String)
    (cutoff : DateTime) (store : EntryStore α) (job : String) :
    (ageThenCount finishedAt jobName cutoff maxEntries store).2.get job =
      if job = jobName
        then ((store.get jobName).filter fun e => cutoff ≤ finishedAt e).rtake maxEntries.toNat
        else store.get job := by
  rw [ageThenCount, get_pruneExcess positive, get_pruneOlderThan, get_pruneOlderThan, if_pos rfl]
  split <;> rfl

theorem get_countThenAge {maxEntries : Int} (positive : 1 ≤ maxEntries) (jobName : String)
    (cutoff : DateTime) (store : EntryStore α) (job : String) :
    (countThenAge finishedAt jobName cutoff maxEntries store).2.get job =
      if job = jobName
        then ((store.get jobName).rtake maxEntries.toNat).filter fun e => cutoff ≤ finishedAt e
        else store.get job := by
  rw [countThenAge, get_pruneOlderThan, get_pruneExcess positive, get_pruneExcess positive,
    if_pos rfl]
  split <;> rfl

theorem fst_ageThenCount {maxEntries : Int} (positive : 1 ≤ maxEntries) (jobName : String)
    (cutoff : DateTime) (store : EntryStore α) :
    (ageThenCount finishedAt jobName cutoff maxEntries store).1 =
      .ok ((store.get jobName).length - (((store.get jobName).filter fun e =>
        cutoff ≤ finishedAt e).rtake maxEntries.toNat).length) := by
  have young := List.length_filter_le (fun e => decide (cutoff ≤ finishedAt e)) (store.get jobName)
  rw [ageThenCount, fst_pruneExcess positive, get_pruneOlderThan, if_pos rfl, fst_pruneOlderThan,
    length_rtake]
  refine congrArg Except.ok ?_
  dsimp only
  omega

theorem fst_countThenAge {maxEntries : Int} (positive : 1 ≤ maxEntries) (jobName : String)
    (cutoff : DateTime) (store : EntryStore α) :
    (countThenAge finishedAt jobName cutoff maxEntries store).1 =
      .ok ((store.get jobName).length - (((store.get jobName).rtake maxEntries.toNat).filter
        fun e => cutoff ≤ finishedAt e).length) := by
  have last := length_rtake maxEntries.toNat (store.get jobName)
  have young := List.length_filter_le (fun e => decide (cutoff ≤ finishedAt e))
    ((store.get jobName).rtake maxEntries.toNat)
  rw [countThenAge, fst_pruneExcess positive, fst_pruneOlderThan, get_pruneExcess positive,
    if_pos rfl]
  refine congrArg Except.ok ?_
  dsimp only
  omega

variable {finishedAt}

/-- Where nothing is too old and there are not too many, both rules leave the store alone. -/
theorem rules_of_done {jobName : String} {cutoff : DateTime} {maxEntries : Int}
    {store : EntryStore α} (positive : 1 ≤ maxEntries)
    (young : ∀ e ∈ store.get jobName, cutoff ≤ finishedAt e)
    (few : (store.get jobName).length ≤ maxEntries) :
    ageThenCount finishedAt jobName cutoff maxEntries store = (.ok 0, store) ∧
      countThenAge finishedAt jobName cutoff maxEntries store = (.ok 0, store) := by
  have aged := pruneOlderThan_of_all young
  have counted := pruneExcess_of_le positive few
  constructor
  · rw [ageThenCount, aged]
    dsimp only
    rw [counted]
    rfl
  · rw [countThenAge, counted]
    dsimp only
    rw [aged]
    rfl

/-- **The rules compose**: in either order they leave the last of the entries that are not too
old, and say how many they have removed. -/
theorem rules_compose (store : EntryStore α) (jobName : String) (cutoff : DateTime)
    (maxEntries : Int) (positive : 1 ≤ maxEntries)
    (inOrder : (store.get jobName).Pairwise fun e e' => finishedAt e ≤ finishedAt e') :
    RulesCompose finishedAt store jobName cutoff maxEntries := by
  have swapped := filter_rtake inOrder cutoff maxEntries.toNat
  have left := get_ageThenCount finishedAt positive jobName cutoff store
  have left' := get_countThenAge finishedAt positive jobName cutoff store
  have removed := fst_ageThenCount finishedAt positive jobName cutoff store
  have removed' := fst_countThenAge finishedAt positive jobName cutoff store
  have here := left jobName
  have here' := left' jobName
  rw [if_pos rfl] at here here'
  rw [swapped] at here' removed'
  have young : ∀ e ∈ ((store.get jobName).filter fun e => cutoff ≤ finishedAt e).rtake
      maxEntries.toNat, cutoff ≤ finishedAt e := fun e member =>
    of_decide_eq_true (List.mem_filter.mp (List.mem_of_mem_drop member)).2
  have few := length_rtake maxEntries.toNat
    ((store.get jobName).filter fun e => cutoff ≤ finishedAt e)
  have fewer := List.length_filter_le (fun e => decide (cutoff ≤ finishedAt e)) (store.get jobName)
  refine ⟨?_, here'.trans here.symm, ⟨_, removed, ?_⟩, removed'.trans removed.symm, ?_, ?_,
    fun job other => ?_, fun now days same => ?_⟩
  · rw [here, List.rtake]
    dsimp only
    congr 1
    omega
  · rw [here]
    omega
  · refine (rules_of_done positive (here ▸ young) ?_).1
    rw [here]
    omega
  · refine (rules_of_done positive (here' ▸ young) ?_).2
    rw [here']
    omega
  · rw [left, left', if_neg other, if_neg other]
    exact ⟨rfl, rfl⟩
  · subst same
    rfl

/-- Three entries, of which the first is too old and one more is too many. -/
theorem rules_compose_three :
    let store : EntryStore Int := ({} : EntryStore Int).replace "backup" [1, 5, 7]
    (1 : Int) ≤ 1 ∧ (store.get "backup").Pairwise (fun e e' => id e ≤ id e') ∧
      RulesCompose id store "backup" 4 1 ∧
      (ageThenCount id "backup" 4 1 store).2.get "backup" = [7] := by
  intro store
  have inOrder : (store.get "backup").Pairwise fun e e' => id e ≤ id e' := by decide
  exact ⟨le_rfl, inOrder, rules_compose store "backup" 4 1 le_rfl inOrder, by decide⟩

end Rules

end Cronwatch.Jobs
