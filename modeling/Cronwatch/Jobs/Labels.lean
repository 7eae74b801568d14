/-
# Jobs.Labels -- jobs by their labels

`job_labels` has the queries for a key, for a value under a key and for several values; `job_grouping`
makes a bucket for each value under a key, and rules of the router ask for a key or for a value.

`labelQueries_agree` says what they have in common: the buckets are the queries for the values, but
for the bucket of the empty text, which has the jobs without the key as well; the buckets make up the
jobs; and the query for several values asks for one after the other, in any order.
-/
import Cronwatch.Alerts.Routing
import Cronwatch.Jobs.Flattening
import Cronwatch.Theory.StableSort
import Mathlib.Data.String.Basic

namespace Cronwatch.Jobs

set_option autoImplicit false

open Cronwatch.Theory Cronwatch.Alerts

def labelsFor (job : JobConfig) : Dict String String := job.labels

def jobsWithLabel (jobs : List JobConfig) (key : String) : List JobConfig :=
  jobs.filter fun job => key ∈ (labelsFor job).keys

def jobsWithLabelValue (jobs : List JobConfig) (key value : String) : List JobConfig :=
  jobs.filter fun job => (labelsFor job).get? key = some value

def allLabelKeys (jobs : List JobConfig) : List String :=
  sortedSet (jobs.flatMap fun job => (labelsFor job).keys)

def jobsMatchingLabels (jobs : List JobConfig) (required : Dict String String) : List JobConfig :=
  if required.entries = [] then jobs
  else jobs.filter fun job => required.entries.all fun e => (labelsFor job).get? e.1 = some e.2

/-- The value under the key, and the empty text where there is none. -/
def labelOrEmpty (labelKey : String) (job : JobConfig) : String := (job.labels.get? labelKey).getD ""

def groupByLabel (jobs : List JobConfig) (labelKey : String) : Dict String (List JobConfig) :=
  groupBy jobs (labelOrEmpty labelKey)

/-- The queries, the buckets and the rules. -/
structure LabelQueriesAgree (jobs : List JobConfig) (key : String) : Prop where
  /-- The keys in order, each of some job. -/
  keys : (allLabelKeys jobs).Pairwise (· < ·) ∧
    ∀ key, key ∈ allLabelKeys jobs ↔ jobsWithLabel jobs key ≠ []
  bucket : ∀ value, value ≠ "" →
    ((groupByLabel jobs key).get? value).getD [] = jobsWithLabelValue jobs key value
  empty : (((groupByLabel jobs key).get? "").getD []).Perm
    ((jobs.filter fun job => key ∉ (labelsFor job).keys) ++ jobsWithLabelValue jobs key "")
  parts : ((groupByLabel jobs key).entries.flatMap Prod.snd).Perm jobs
  /-- The values under the key split the jobs that have it. -/
  values : ∀ values : List String, values.Nodup →
    (∀ job ∈ jobs, ∀ value, (labelsFor job).get? key = some value → value ∈ values) →
      (values.flatMap (jobsWithLabelValue jobs key)).Perm (jobsWithLabel jobs key)
  matching : ∀ (required : Dict String String) (order : List (String × String)),
    order.Perm required.entries →
      jobsMatchingLabels jobs required = order.foldl (fun jobs e => jobsWithLabelValue jobs e.1 e.2) jobs
  rule : ∀ (value : Option String) (job : JobConfig), job ∈ jobs →
    (Selector.matches (.ofConfig job) { labelKey := some key, labelValue := value } = true ↔
      job ∈ value.elim (jobsWithLabel jobs key) (jobsWithLabelValue jobs key))

theorem foldl_jobsWithLabelValue (order : List (String × String)) (jobs : List JobConfig) :
    order.foldl (fun jobs e => jobsWithLabelValue jobs e.1 e.2) jobs =
      jobs.filter fun job => order.all fun e => (labelsFor job).get? e.1 = some e.2 := by
  induction order generalizing jobs with
  | nil => simp
  | cons e rest ih =>
      rw [List.foldl_cons, ih, jobsWithLabelValue, List.filter_filter]
      apply List.filter_congr
      intro job _
      rw [List.all_cons, Bool.and_comm]

theorem jobsMatchingLabels_eq (jobs : List JobConfig) (required : Dict String String) :
    jobsMatchingLabels jobs required =
      jobs.filter fun job => required.entries.all fun e => (labelsFor job).get? e.1 = some e.2 := by
  rw [jobsMatchingLabels]
  split
  · rename_i none_
    rw [none_]
    exact (List.filter_eq_self.mpr fun _ _ => rfl).symm
  · rfl

theorem mem_jobsWithLabel {jobs : List JobConfig} {key : String} {job : JobConfig} :
    job ∈ jobsWithLabel jobs key ↔ job ∈ jobs ∧ key ∈ (labelsFor job).keys := by
  rw [jobsWithLabel, List.mem_filter, decide_eq_true_eq]

theorem mem_jobsWithLabelValue {jobs : List JobConfig} {key value : String} {job : JobConfig} :
    job ∈ jobsWithLabelValue jobs key value ↔ job ∈ jobs ∧ (labelsFor job).get? key = some value := by
  rw [jobsWithLabelValue, List.mem_filter, decide_eq_true_eq]

theorem mem_allLabelKeys (jobs : List JobConfig) (key : String) :
    key ∈ allLabelKeys jobs ↔ jobsWithLabel jobs key ≠ [] := by
  rw [allLabelKeys, mem_sortedSet, List.mem_flatMap]
  constructor
  · rintro ⟨job, member, has⟩
    exact List.ne_nil_of_mem (mem_jobsWithLabel.mpr ⟨member, has⟩)
  · intro some_
    obtain ⟨job, found⟩ := List.exists_mem_of_ne_nil _ some_
    exact ⟨job, mem_jobsWithLabel.mp found⟩

/-- The bucket of a value: the jobs with the value, and those without the key in the bucket of the
empty text. -/
theorem bucket_groupByLabel (jobs : List JobConfig) (key value : String) :
    ((groupByLabel jobs key).get? value).getD [] = jobs.filter fun job => labelOrEmpty key job = value :=
  get?_buckets (labelOrEmpty key) jobs value

theorem bucket_of_value (jobs : List JobConfig) (key : String) {value : String} (some_ : value ≠ "") :
    ((groupByLabel jobs key).get? value).getD [] = jobsWithLabelValue jobs key value := by
  rw [bucket_groupByLabel]
  apply List.filter_congr
  intro job _
  rw [labelOrEmpty, labelsFor]
  cases held : job.labels.get? key with
  | none => simp [Ne.symm some_]
  | some value' => simp

theorem bucket_of_empty (jobs : List JobConfig) (key : String) :
    (((groupByLabel jobs key).get? "").getD []).Perm
      ((jobs.filter fun job => key ∉ (labelsFor job).keys) ++ jobsWithLabelValue jobs key "") := by
  rw [bucket_groupByLabel]
  refine (List.filter_append_perm (fun job => key ∉ (labelsFor job).keys) _).symm.trans ?_
  rw [List.filter_filter, List.filter_filter]
  refine .append (.of_eq (List.filter_congr fun job _ => ?_)) (.of_eq (List.filter_congr fun job _ => ?_))
  · cases held : job.labels.get? key <;> simp [Dict.mem_keys_iff, labelOrEmpty, labelsFor, held]
  · cases held : job.labels.get? key <;> simp [Dict.mem_keys_iff, labelOrEmpty, labelsFor, held]

/-- The values under a key split the jobs that have the key. -/
theorem flatMap_jobsWithLabelValue {jobs : List JobConfig} {key : String} {values : List String}
    (distinct : values.Nodup)
    (all : ∀ job ∈ jobs, ∀ value, (labelsFor job).get? key = some value → value ∈ values) :
    (values.flatMap (jobsWithLabelValue jobs key)).Perm (jobsWithLabel jobs key) := by
  have valued : ∀ value, ((jobsWithLabel jobs key).filter fun job => labelOrEmpty key job = value) =
      jobsWithLabelValue jobs key value := by
    intro value
    rw [jobsWithLabel, List.filter_filter]
    apply List.filter_congr
    intro job _
    cases held : job.labels.get? key <;> simp [Dict.mem_keys_iff, labelOrEmpty, labelsFor, held]
  have parts := perm_flatMap_filter (labelOrEmpty key) (jobsWithLabel jobs key) distinct
  simp only [valued] at parts
  refine parts.trans (.of_eq (List.filter_eq_self.mpr fun job found => ?_))
  obtain ⟨member, has⟩ := mem_jobsWithLabel.mp found
  obtain ⟨value, held⟩ := Option.isSome_iff_exists.mp ((Dict.mem_keys_iff _ _).mp has)
  have is : labelOrEmpty key job = value := congrArg (Option.getD · "") held
  rw [is]
  exact decide_eq_true (all job member value held)

theorem jobsMatchingLabels_of_perm (jobs : List JobConfig) {required : Dict String String}
    {order : List (String × String)} (same : order.Perm required.entries) :
    jobsMatchingLabels jobs required =
      order.foldl (fun jobs e => jobsWithLabelValue jobs e.1 e.2) jobs := by
  rw [foldl_jobsWithLabelValue, jobsMatchingLabels_eq]
  apply List.filter_congr
  intro job _
  rw [Bool.eq_iff_iff, List.all_eq_true, List.all_eq_true]
  exact forall_congr' fun e => by rw [same.mem_iff]

theorem matches_label {jobs : List JobConfig} {job : JobConfig} (member : job ∈ jobs) (key : String)
    (value : Option String) :
    Selector.matches (.ofConfig job) { labelKey := some key, labelValue := value } = true ↔
      job ∈ value.elim (jobsWithLabel jobs key) (jobsWithLabelValue jobs key) := by
  have labels : (RoutedJob.ofConfig job).labels = job.labels := rfl
  cases value with
  | none =>
      rw [Option.elim_none, mem_jobsWithLabel, Dict.mem_keys_iff, Selector.matches, labelsFor]
      cases held : job.labels.get? key <;> simp [labels, held, member]
  | some value =>
      rw [Option.elim_some, mem_jobsWithLabelValue, Selector.matches, labelsFor]
      cases held : job.labels.get? key <;> simp [labels, held, member]

/-- **The queries by labels agree.** -/
theorem labelQueries_agree (jobs : List JobConfig) (key : String) : LabelQueriesAgree jobs key where
  keys := ⟨pairwise_sortedSet _, mem_allLabelKeys jobs⟩
  bucket _ some_ := bucket_of_value jobs key some_
  empty := bucket_of_empty jobs key
  parts := perm_buckets _ jobs
  values _ distinct all := flatMap_jobsWithLabelValue distinct all
  matching _ _ same := jobsMatchingLabels_of_perm jobs same
  rule value _ member := matches_label member key value

end Cronwatch.Jobs
