/-
# Jobs.Grouping -- jobs by their tags

`group_by_tag` goes through the tags of a job as they are listed, `jobs_with_tag` and
`all_tags` through the set of them.  A tag that a job lists twice puts the job into its
bucket twice (`bucket_eq`), so the bucket is what the query finds exactly when no job does
that (`tagBucketsAgree_iff`).
-/
import Mathlib.Algebra.GroupWithZero.Nat
import Mathlib.Data.Finset.Dedup
import Mathlib.Data.List.MinMax
import Cronwatch.Jobs.Config
import Cronwatch.Theory.Buckets

namespace Cronwatch.Jobs

set_option autoImplicit false

open Cronwatch.Theory

/-! ## The tags of a job -/

def tagsFor (job : JobConfig) : Finset String := job.tags.toFinset

def jobsWithTag (jobs : List JobConfig) (tag : String) : List JobConfig :=
  jobs.filter fun job => tag ∈ tagsFor job

def allTags (jobs : List JobConfig) : Finset String :=
  jobs.foldl (fun result job => result ∪ tagsFor job) ∅

/-! ## Groups -/

/-- One bucket for each tag, with the jobs that have it. -/
def groupByTag (jobs : List JobConfig) : Dict String (List JobConfig) :=
  jobs.foldl
    (fun groups job => job.tags.foldl (fun groups tag => appendTo groups (tag, job)) groups) .empty

/-- The first of the keys with the most jobs. -/
def largestGroup (groups : Dict String (List JobConfig)) : Option String :=
  groups.keys.argmax fun k => ((groups.get? k).getD []).length

theorem mem_tagsFor (job : JobConfig) (tag : String) : tag ∈ tagsFor job ↔ tag ∈ job.tags :=
  List.mem_toFinset

theorem mem_allTags (jobs : List JobConfig) (tag : String) :
    tag ∈ allTags jobs ↔ ∃ job ∈ jobs, tag ∈ job.tags := by
  induction jobs using List.reverseRecOn with
  | nil => simp [allTags]
  | append_singleton before job ih =>
      rw [allTags, List.foldl_append, ← allTags]
      simp [ih, mem_tagsFor, or_and_right, exists_or]

/-- Every tag of every job, with the job. -/
def tagged (jobs : List JobConfig) : List (String × JobConfig) :=
  jobs.flatMap fun job => job.tags.map fun tag => (tag, job)

theorem groupByTag_eq (jobs : List JobConfig) : groupByTag jobs = pairBuckets (tagged jobs) := by
  rw [pairBuckets, tagged, List.foldl_flatMap]
  simp only [List.foldl_map]
  rfl

theorem mem_keys_groupByTag (jobs : List JobConfig) (tag : String) :
    tag ∈ (groupByTag jobs).keys ↔ ∃ job ∈ jobs, tag ∈ job.tags := by
  rw [groupByTag_eq, mem_keys_pairBuckets]
  simp [tagged]

/-- **A bucket** has a job as often as the job lists the tag. -/
theorem bucket_eq (jobs : List JobConfig) (tag : String) :
    ((groupByTag jobs).get? tag).getD [] =
      jobs.flatMap fun job => List.replicate (job.tags.count tag) job := by
  rw [groupByTag_eq, get?_pairBuckets, tagged, List.filter_flatMap, List.map_flatMap]
  apply List.flatMap_congr
  intro job _
  rw [List.filter_map, List.map_map, List.count, List.countP_eq_length_filter]
  exact List.map_const'

theorem indicator_le_count (job : JobConfig) (tag : String) :
    (if decide (tag ∈ tagsFor job) = true then 1 else 0) ≤ job.tags.count tag := by
  split
  · rename_i member
    exact List.count_pos_iff.mpr ((mem_tagsFor job tag).mp (of_decide_eq_true member))
  · exact Nat.zero_le _

/-- There are at least as many tags as jobs that have the tag. -/
theorem countP_le_sum (jobs : List JobConfig) (tag : String) :
    (jobs.countP fun job => tag ∈ tagsFor job) ≤ (jobs.map fun job => job.tags.count tag).sum := by
  induction jobs with
  | nil => simp
  | cons job rest ih =>
      rw [List.countP_cons, List.map_cons, List.sum_cons]
      have one := indicator_le_count job tag
      omega

/-- If there are not more, no job lists the tag twice. -/
theorem count_le_one_of_sum_le {jobs : List JobConfig} {tag : String}
    (le : (jobs.map fun job => job.tags.count tag).sum ≤ jobs.countP fun job => tag ∈ tagsFor job) :
    ∀ job ∈ jobs, job.tags.count tag ≤ 1 := by
  induction jobs with
  | nil => simp
  | cons job rest ih =>
      have others := countP_le_sum rest tag
      rw [List.countP_cons, List.map_cons, List.sum_cons] at le
      have one := indicator_le_count job tag
      have atMost : (if decide (tag ∈ tagsFor job) = true then 1 else 0) ≤ 1 := by
        split <;> omega
      rw [List.forall_mem_cons]
      exact ⟨by omega, ih (by omega)⟩

/-- **The bucket is what the query finds** where no job lists the tag twice. -/
theorem bucket_eq_jobsWithTag_iff (jobs : List JobConfig) (tag : String) :
    ((groupByTag jobs).get? tag).getD [] = jobsWithTag jobs tag ↔
      ∀ job ∈ jobs, job.tags.count tag ≤ 1 := by
  rw [bucket_eq]
  constructor
  · intro same
    refine count_le_one_of_sum_le (le_of_eq ?_)
    have lengths := congrArg List.length same
    rw [List.length_flatMap, jobsWithTag, ← List.countP_eq_length_filter] at lengths
    simpa using lengths
  · intro once
    rw [jobsWithTag]
    induction jobs with
    | nil => rfl
    | cons job rest ih =>
        rw [List.forall_mem_cons] at once
        rw [List.flatMap_cons, ih once.2]
        by_cases has : tag ∈ job.tags
        · have ge := List.count_pos_iff.mpr has
          have one : job.tags.count tag = 1 := by omega
          rw [one, List.filter_cons_of_pos (by simpa [mem_tagsFor] using has)]
          rfl
        · rw [List.count_eq_zero.mpr has, List.filter_cons_of_neg (by simpa [mem_tagsFor] using has)]
          rfl

/-- The buckets and the queries. -/
structure TagBucketsAgree (jobs : List JobConfig) : Prop where
  keys : ∀ tag, tag ∈ (groupByTag jobs).keys ↔ tag ∈ allTags jobs
  bucket : ∀ tag ∈ allTags jobs, (groupByTag jobs).get? tag = some (jobsWithTag jobs tag)
  once : ∀ tag bucket, (groupByTag jobs).get? tag = some bucket → ∀ job ∈ jobs, tag ∈ job.tags →
    bucket.count job = jobs.count job
  largest : largestGroup (groupByTag jobs) =
    (groupByTag jobs).keys.argmax fun tag => (jobsWithTag jobs tag).length

/-- **The buckets agree with the queries** exactly when no job lists a tag twice. -/
theorem tagBucketsAgree_iff (jobs : List JobConfig) :
    TagBucketsAgree jobs ↔ ∀ job ∈ jobs, job.tags.Nodup := by
  have keys : ∀ tag, tag ∈ (groupByTag jobs).keys ↔ tag ∈ allTags jobs := fun tag =>
    (mem_keys_groupByTag jobs tag).trans (mem_allTags jobs tag).symm
  constructor
  · intro agree job member
    apply List.nodup_iff_count_le_one.mpr
    intro tag
    by_cases has : tag ∈ job.tags
    · have found := agree.bucket tag ((mem_allTags jobs tag).mpr ⟨job, member, has⟩)
      have same : ((groupByTag jobs).get? tag).getD [] = jobsWithTag jobs tag := by
        rw [found, Option.getD_some]
      exact (bucket_eq_jobsWithTag_iff jobs tag).mp same job member
    · rw [List.count_eq_zero.mpr has]
      exact Nat.zero_le 1
  · intro distinct
    have same : ∀ tag, ((groupByTag jobs).get? tag).getD [] = jobsWithTag jobs tag := fun tag =>
      (bucket_eq_jobsWithTag_iff jobs tag).mpr fun job member =>
        List.nodup_iff_count_le_one.mp (distinct job member) tag
    refine ⟨keys, fun tag known => ?_, fun tag bucket found job member has => ?_, ?_⟩
    · obtain ⟨bucket, found⟩ := Option.isSome_iff_exists.mp
        ((Dict.mem_keys_iff _ _).mp ((keys tag).mpr known))
      rw [← same tag, found, Option.getD_some]
    · have items := same tag
      rw [found, Option.getD_some] at items
      rw [items, jobsWithTag, List.count_filter (by simpa [mem_tagsFor] using has)]
    · rw [largestGroup]
      simp only [same]

/-- One job that lists one tag twice. -/
theorem tagBucketsAgree_fails :
    let job : JobConfig :=
      { name := "backup", command := "true", schedule := "@daily", tags := ["nightly", "nightly"] }
    ¬ TagBucketsAgree [job] ∧ (groupByTag [job]).get? "nightly" = some [job, job] ∧
      jobsWithTag [job] "nightly" = [job] := by
  intro job
  refine ⟨fun agree => ?_, by decide, by decide⟩
  have found := agree.bucket "nightly" (by decide)
  exact absurd found (by decide)

end Cronwatch.Jobs
