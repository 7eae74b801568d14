/-
# Jobs.Flattening -- job objects in groups, and all of them in one list

Jobs are objects here: two of them may have the same fields.  `flatten_groups` tells them
apart by `id`, which no two objects that are alive have in common (`Identity`).

* `flattenGroups_first`: whatever the buckets have in common, each object is listed once,
  where it comes first.
* `flattenGroups_groupBy`: the buckets of `group_by` have nothing in common, so that their
  list is all of them one after the other.

`grouping_losesNothing` puts the two together.
-/
import Cronwatch.Jobs.GroupReporter
import Cronwatch.Theory.FirstOccurrences

namespace Cronwatch.Jobs

set_option autoImplicit false

open Cronwatch.Theory

universe u v

/-- `id` of the objects that are alive. -/
structure Identity (ο : Type u) where
  id : ο → Nat
  injective : Function.Injective id

namespace Objects

variable {ο : Type u} {κ : Type v}

/-- `group_by(jobs, key)`. -/
def groupBy [DecidableEq κ] (jobs : List ο) (key : ο → κ) : Dict κ (List ο) := buckets key jobs

/-- The loop over the buckets, and in it the loop over the jobs of one. -/
def flattenGroups (identity : Identity ο) (groups : Dict κ (List ο)) : List ο :=
  (groups.entries.foldl (fun acc e => e.2.foldl (keepNew identity.id) acc) (∅, [])).2

/-- Without their identities, the objects are grouped like their fields. -/
theorem groupBy_fields (fields : ο → JobConfig) (jobs : List ο) (key : JobConfig → String) :
    ((groupBy jobs fun job => key (fields job)).mapEntries fun _ members => members.map fields) =
      Jobs.groupBy (jobs.map fields) key :=
  mapEntries_buckets key fields jobs

/-! ## Each object once -/

/-- **Any buckets**: each object is listed once, where it comes first. -/
theorem flattenGroups_first [DecidableEq ο] (identity : Identity ο) (groups : Dict κ (List ο)) :
    FirstOccurrences (groups.entries.flatMap Prod.snd) (flattenGroups identity groups) := by
  have kept := keepNew_loop identity.injective (groups.entries.flatMap Prod.snd)
  rw [List.foldl_flatMap] at kept
  exact kept.first

/-- Buckets without an object in common are listed one after the other. -/
theorem flattenGroups_of_nodup (identity : Identity ο) {groups : Dict κ (List ο)}
    (distinct : (groups.entries.flatMap Prod.snd).Nodup) :
    flattenGroups identity groups = groups.entries.flatMap Prod.snd := by
  classical
  exact (flattenGroups_first identity groups).unique (.self distinct)

/-! ## Each key in one piece -/

variable [DecidableEq κ]

/-- A reordering of the jobs by their keys: the jobs of one key are one piece in the order
in which they stood, and the pieces are in the order in which the keys come first. -/
structure GroupedInOrder (jobs : List ο) (key : ο → κ) (flat : List ο) : Prop where
  perm : flat.Perm jobs
  contiguous : ∀ k, (flat.filter fun job => key job = k) <:+: flat
  stable : ∀ k, (flat.filter fun job => key job = k) = jobs.filter fun job => key job = k
  keysInOrder : flat.Pairwise fun a b =>
    (jobs.map key).idxOf (key a) ≤ (jobs.map key).idxOf (key b)

/-- The buckets of `group_by`, one after the other. -/
theorem groupedInOrder (jobs : List ο) (key : ο → κ) :
    GroupedInOrder jobs key ((groupBy jobs key).entries.flatMap Prod.snd) := by
  have keys := keys_buckets key jobs
  have stable := filter_flatMap_of_all key keys.nodup fun job member => mem_keys_of_mem key member
  refine ⟨perm_buckets key jobs, fun k => ?_, ?_, ?_⟩
  · rw [groupBy, flatMap_buckets, stable]
    by_cases known : k ∈ (buckets key jobs).keys
    · rw [List.flatMap_def]
      exact List.infix_of_mem_flatten (List.mem_map_of_mem known)
    · have none_ : (jobs.filter fun job => key job = k) = [] := by
        apply List.filter_eq_nil_iff.mpr
        intro job member has
        exact known (of_decide_eq_true has ▸ mem_keys_of_mem key member)
      rw [none_]
      exact List.nil_infix
  · rw [groupBy, flatMap_buckets]
    exact stable
  · have keyOf : ∀ {k : κ} {job : ο}, job ∈ jobs.filter (fun job => key job = k) → key job = k :=
      fun member => of_decide_eq_true (List.mem_filter.mp member).2
    rw [groupBy, flatMap_buckets, List.pairwise_flatMap]
    constructor
    · intro k _
      apply List.pairwise_of_forall_mem_list
      intro a member b member'
      rw [keyOf member, keyOf member']
    · apply keys.inOrder.imp
      intro k k' before a member b member'
      rw [keyOf member, keyOf member']
      exact before.le

/-- **The buckets of `group_by`**: different objects are regrouped, and none is lost. -/
theorem flattenGroups_groupBy (identity : Identity ο) {jobs : List ο} (distinct : jobs.Nodup)
    (key : ο → κ) : GroupedInOrder jobs key (flattenGroups identity (groupBy jobs key)) := by
  have grouped := groupedInOrder jobs key
  rw [flattenGroups_of_nodup identity (grouped.perm.nodup_iff.mpr distinct)]
  exact grouped

/-- **Grouping loses nothing**, and listing groups repeats nothing. -/
theorem grouping_losesNothing [DecidableEq ο] (identity : Identity ο) (jobs : List ο)
    (distinct : jobs.Nodup) (key : ο → κ) (groups : Dict κ (List ο)) :
    GroupedInOrder jobs key (flattenGroups identity (groupBy jobs key)) ∧
      FirstOccurrences (groups.entries.flatMap Prod.snd) (flattenGroups identity groups) :=
  ⟨flattenGroups_groupBy identity distinct key, flattenGroups_first identity groups⟩

/-- Three objects, of which the first and the last have one key, and two buckets that have
an object in common. -/
theorem grouping_losesNothing_three :
    let identity : Identity Nat := ⟨fun job => 100 + job, fun _ _ same => Nat.add_left_cancel same⟩
    let key (job : Nat) : String := if job = 1 then "@hourly" else "@daily"
    let groups : Dict String (List Nat) := ⟨[("g1", [0, 1]), ("g2", [1, 2])], by decide⟩
    ([0, 1, 2] : List Nat).Nodup ∧
      (GroupedInOrder [0, 1, 2] key (flattenGroups identity (groupBy [0, 1, 2] key)) ∧
        FirstOccurrences (groups.entries.flatMap Prod.snd) (flattenGroups identity groups)) ∧
      flattenGroups identity (groupBy [0, 1, 2] key) = [0, 2, 1] ∧
      flattenGroups identity groups = [0, 1, 2] := by
  intro identity key groups
  have distinct : ([0, 1, 2] : List Nat).Nodup := by decide
  exact ⟨distinct, grouping_losesNothing identity [0, 1, 2] distinct key groups, by decide,
    by decide⟩

end Objects

end Cronwatch.Jobs
