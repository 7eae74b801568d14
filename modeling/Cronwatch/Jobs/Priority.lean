/-
# Jobs.Priority -- sorting and grouping jobs by their priority

A job is any object that may have a `priority`; one that is missing or null counts as
`DEFAULT_PRIORITY`.  Sorting, grouping, filtering and the maximum are written separately,
and come to the same order of the same jobs (`priorityViews_agree`).
-/
import Cronwatch.Runtime.Yaml
import Cronwatch.Theory.StableSort

namespace Cronwatch.Jobs

set_option autoImplicit false

open Cronwatch.Theory Cronwatch.Runtime

universe u

def defaultPriority : Int := 0

section Priority

variable {α : Type u} (priority : α → Attribute Int)

/-- `getattr(job, "priority", DEFAULT_PRIORITY) or DEFAULT_PRIORITY`. -/
def priorityOf (job : α) : Int :=
  match priority job with
  | .missing | .null => defaultPriority
  | .value p => if p = 0 then defaultPriority else p

def sortByPriority (jobs : List α) (descending : Bool := true) : List α :=
  sortedBy (priorityOf priority) descending jobs

def groupByPriority (jobs : List α) : Dict Int (List α) :=
  sortEntries true (buckets (priorityOf priority) jobs)

def highestPriority (jobs : List α) : Int :=
  match (jobs.map (priorityOf priority)).max? with
  | none => defaultPriority
  | some p => p

def filterByMinPriority (jobs : List α) (minPriority : Int) : List α :=
  jobs.filter fun job => minPriority ≤ priorityOf priority job

/-- What the views have to say of the same jobs. -/
structure PriorityViewsAgree (jobs : List α) : Prop where
  grouped : (groupByPriority priority jobs).entries.flatMap Prod.snd = sortByPriority priority jobs
  descending : (sortByPriority priority jobs).Pairwise fun a b =>
    priorityOf priority b ≤ priorityOf priority a
  sortStable : ∀ p, ((sortByPriority priority jobs).filter fun job => priorityOf priority job = p) =
    jobs.filter fun job => priorityOf priority job = p
  groupStable : ∀ p bucket, (groupByPriority priority jobs).get? p = some bucket →
    bucket = jobs.filter fun job => priorityOf priority job = p
  filtered : ∀ minPriority,
    filterByMinPriority priority (sortByPriority priority jobs) minPriority <+:
      sortByPriority priority jobs
  highest : highestPriority priority jobs =
    ((sortByPriority priority jobs).head?.map (priorityOf priority)).getD defaultPriority

theorem sortByPriority_descending (jobs : List α) :
    (sortByPriority priority jobs).Pairwise fun a b =>
      priorityOf priority b ≤ priorityOf priority a := by
  have falls : (sortedBy (priorityOf priority) true jobs).Pairwise
      (Precedes (priorityOf priority) true) := pairwise_sortedBy jobs
  exact falls

theorem highestPriority_eq (jobs : List α) : highestPriority priority jobs =
    ((sortByPriority priority jobs).head?.map (priorityOf priority)).getD defaultPriority := by
  have perm : (sortedBy (priorityOf priority) true jobs).Perm jobs := perm_sortedBy jobs
  have falls := sortByPriority_descending priority jobs
  rw [sortByPriority] at falls
  rw [highestPriority, sortByPriority]
  cases sorted : sortedBy (priorityOf priority) true jobs with
  | nil =>
      rw [sorted] at perm
      rw [← perm.nil_eq]
      rfl
  | cons first rest =>
      rw [sorted] at perm falls
      have greatest : (jobs.map (priorityOf priority)).max? = some (priorityOf priority first) := by
        rw [List.max?_eq_some_iff]
        refine ⟨List.mem_map_of_mem (perm.mem_iff.mp List.mem_cons_self), fun p member => ?_⟩
        obtain ⟨job, among, rfl⟩ := List.mem_map.mp member
        rcases List.mem_cons.mp (perm.mem_iff.mpr among) with rfl | later
        · exact le_rfl
        · exact (List.pairwise_cons.mp falls).1 job later
      rw [greatest]
      rfl

/-- **The views of the priorities agree.** -/
theorem priorityViews_agree (jobs : List α) : PriorityViewsAgree priority jobs where
  grouped := flatMap_sortEntries (priorityOf priority) true jobs
  descending := sortByPriority_descending priority jobs
  sortStable p := filter_sortedBy jobs p
  groupStable p bucket found := by
    rw [groupByPriority, get?_sortEntries] at found
    rw [← get?_buckets (priorityOf priority) jobs p, found, Option.getD_some]
  filtered minPriority := filter_prefix (pairwise_sortedBy jobs) minPriority
  highest := highestPriority_eq priority jobs

/-- A high and a low priority, and two jobs without one. -/
example :
    let job : Nat → Attribute Int
      | 0 => .value 1
      | 1 => .value 9
      | 2 => .null
      | _ => .missing
    sortByPriority job [0, 1, 2, 3] = [1, 0, 2, 3] ∧
      (groupByPriority job [0, 1, 2, 3]).entries = [(9, [1]), (1, [0]), (0, [2, 3])] := by
  decide

end Priority

end Cronwatch.Jobs
