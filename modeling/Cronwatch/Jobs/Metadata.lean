/-
# Jobs.Metadata -- queries of the metadata and the annotations of jobs

`metadata` and `annotations` are attributes that a job may have: `metadata_for` and
`annotations_for` read them as dicts, and anything else as the empty one.

A missing key is read as `None`.  `jobs_with_meta_value` guards against that; the other two
queries by value do not, so they answer a search for `None` with jobs that lack the key
(`queriesAgree_iff`).
-/
import Cronwatch.Jobs.Config
import Cronwatch.Runtime.Yaml

namespace Cronwatch.Jobs

set_option autoImplicit false

open Cronwatch.Theory Cronwatch.Runtime

/-- A job with the attributes that `JobConfig` does not declare. -/
structure AnnotatedJob extends JobConfig where
  metadata : Attribute Yaml := .missing
  annotations : Attribute Yaml := .missing

/-- `dict(raw)` where `raw` is a dict, and `{}` otherwise. -/
def dictOf : Attribute Yaml → List (Scalar × Yaml)
  | .value (.dict entries) => entries
  | _ => []

def metadataFor (job : AnnotatedJob) : List (Scalar × Yaml) := dictOf job.metadata

def annotationsFor (job : AnnotatedJob) : List (Scalar × Yaml) := dictOf job.annotations

/-- `entries.get(key)`. -/
def valueUnder (key : String) (entries : List (Scalar × Yaml)) : Option Yaml :=
  lookupKey (.str key) entries

def getMeta (job : AnnotatedJob) (key : String) (default_ : Yaml := .none) : Yaml :=
  (valueUnder key (metadataFor job)).getD default_

def hasMeta (job : AnnotatedJob) (key : String) : Bool := (valueUnder key (metadataFor job)).isSome

def jobsWithMeta (jobs : List AnnotatedJob) (key : String) : List AnnotatedJob :=
  jobs.filter fun job => hasMeta job key

def jobsWithMetaValue (jobs : List AnnotatedJob) (key : String) (value : Yaml) :
    List AnnotatedJob :=
  jobs.filter fun job => !(getMeta job key).isNone && (getMeta job key).eq value

def jobsMatchingMetadata (jobs : List AnnotatedJob) (criteria : Dict String Yaml) :
    List AnnotatedJob :=
  jobs.filter fun job => criteria.entries.all fun e => (getMeta job e.1).eq e.2

def getAnnotation (job : AnnotatedJob) (key : String) (default_ : Yaml := .none) : Yaml :=
  (valueUnder key (annotationsFor job)).getD default_

def hasAnnotation (job : AnnotatedJob) (key : String) : Bool :=
  (valueUnder key (annotationsFor job)).isSome

def jobsWithAnnotation (jobs : List AnnotatedJob) (key : String) : List AnnotatedJob :=
  jobs.filter fun job => hasAnnotation job key

def jobsWithAnnotationValue (jobs : List AnnotatedJob) (key : String) (value : Yaml) :
    List AnnotatedJob :=
  jobs.filter fun job => ( getAnnotation job key).eq value

/-- `{key: value}`. -/
def single (key : String) (value : Yaml) : Dict String Yaml := Dict.empty.set key value

/-! ## Values and missing keys -/

/-- A value that is found is the value of the key. -/
theorem isSome_of_getD {found : Option Yaml} {value : Yaml} (some_ : value ≠ .none)
    (matches_ : (found.getD .none).eq value = true) : found.isSome = true := by
  cases found with
  | none => exact absurd ((Yaml.none_eq_iff value).mp matches_) some_
  | some _ => rfl

/-- A value other than `None` is read exactly where one is stored. -/
theorem getD_ne_none_iff {found : Option Yaml} :
    found.getD .none ≠ .none ↔ ∃ v, found = some v ∧ v ≠ .none := by
  cases found with
  | none => simp
  | some v => simp

theorem matching_single (jobs : List AnnotatedJob) (key : String) (value : Yaml) :
    jobsMatchingMetadata jobs (single key value) =
      jobs.filter fun job => (getMeta job key).eq value := by
  apply List.filter_congr
  intro job _
  simp [single, Dict.set, Dict.assign, Dict.empty]

theorem mem_matching_single {jobs : List AnnotatedJob} {key : String} {value : Yaml}
    {job : AnnotatedJob} : job ∈ jobsMatchingMetadata jobs (single key value) ↔
      job ∈ jobs ∧ (getMeta job key).eq value = true := by
  rw [matching_single, List.mem_filter]

/-- The three queries by one key and one value. -/
structure QueriesAgree (jobs : List AnnotatedJob) (key : String) (value : Yaml) : Prop where
  equal : jobsMatchingMetadata jobs (single key value) = jobsWithMetaValue jobs key value
  matchingHasKey : ∀ job ∈ jobsMatchingMetadata jobs (single key value), hasMeta job key
  withValueHasKey : ∀ job ∈ jobsWithMetaValue jobs key value, hasMeta job key
  annotated : ∀ job ∈ jobsWithAnnotationValue jobs key value, job ∈ jobsWithAnnotation jobs key

/-- A value other than `None`, or jobs that all have the key: in the metadata with a value
other than `None`, and in the annotations. -/
def NoneIsClear (jobs : List AnnotatedJob) (key : String) (value : Yaml) : Prop :=
  value ≠ .none ∨ ∀ job ∈ jobs,
    (∃ v, valueUnder key (metadataFor job) = some v ∧ v ≠ .none) ∧ hasAnnotation job key = true

/-- A value other than `None` is found only under its key. -/
theorem queriesAgree_of_ne_none {value : Yaml} (some_ : value ≠ .none)
    (jobs : List AnnotatedJob) (key : String) : QueriesAgree jobs key value := by
  have guarded : ∀ job, (getMeta job key).eq value = true → (getMeta job key).isNone = false := by
    intro job matches_
    refine Bool.eq_false_iff.mpr fun is => some_ ?_
    rw [(Yaml.isNone_iff _).mp is] at matches_
    exact (Yaml.none_eq_iff value).mp matches_
  have equal : jobsMatchingMetadata jobs (single key value) = jobsWithMetaValue jobs key value := by
    rw [matching_single]
    apply List.filter_congr
    intro job _
    cases matches_ : (getMeta job key).eq value with
    | false => simp
    | true => simp [guarded job matches_]
  have keyed : ∀ job ∈ jobsMatchingMetadata jobs (single key value), hasMeta job key :=
    fun job member => isSome_of_getD some_ (mem_matching_single.mp member).2
  refine ⟨equal, keyed, equal ▸ keyed, fun job member => ?_⟩
  obtain ⟨among, matches_⟩ := List.mem_filter.mp member
  exact List.mem_filter.mpr ⟨among, isSome_of_getD some_ matches_⟩

/-- The guard: no job has the value `None`. -/
theorem jobsWithMetaValue_none (jobs : List AnnotatedJob) (key : String) :
    jobsWithMetaValue jobs key .none = [] := by
  apply List.filter_eq_nil_iff.mpr
  intro job _ both
  obtain ⟨guarded, matches_⟩ := Bool.and_eq_true_iff.mp both
  rw [Yaml.eq_none_iff] at matches_
  rw [matches_] at guarded
  cases guarded

/-- A search for `None` finds nothing in jobs that have a value under the key. -/
theorem queriesAgree_none {jobs : List AnnotatedJob} {key : String}
    (clear : ∀ job ∈ jobs, (∃ v, valueUnder key (metadataFor job) = some v ∧ v ≠ .none) ∧
      hasAnnotation job key = true) : QueriesAgree jobs key .none := by
  have nowhere : ∀ job ∈ jobs, ¬ (getMeta job key).eq .none = true := by
    intro job member matches_
    exact getD_ne_none_iff.mpr (clear job member).1 ((Yaml.eq_none_iff _).mp matches_)
  have none_ : jobsMatchingMetadata jobs (single key .none) = [] := by
    rw [matching_single]
    exact List.filter_eq_nil_iff.mpr nowhere
  refine ⟨none_.trans (jobsWithMetaValue_none jobs key).symm, ?_, ?_, fun job member => ?_⟩
  · rw [none_]
    exact fun _ impossible => absurd impossible List.not_mem_nil
  · rw [jobsWithMetaValue_none]
    exact fun _ impossible => absurd impossible List.not_mem_nil
  · obtain ⟨among, -⟩ := List.mem_filter.mp member
    exact List.mem_filter.mpr ⟨among, (clear job among).2⟩

/-- Where the queries agree about `None`, every job has the key. -/
theorem clear_of_queriesAgree {jobs : List AnnotatedJob} {key : String}
    (agree : QueriesAgree jobs key .none) : ∀ job ∈ jobs,
      (∃ v, valueUnder key (metadataFor job) = some v ∧ v ≠ .none) ∧
        hasAnnotation job key = true := by
  intro job member
  constructor
  · apply getD_ne_none_iff.mp
    intro missing
    have found := mem_matching_single.mpr ⟨member, (Yaml.eq_none_iff _).mpr missing⟩
    rw [agree.equal, jobsWithMetaValue_none] at found
    cases found
  · rw [ hasAnnotation]
    cases held : valueUnder key (annotationsFor job) with
    | none =>
        have found : job ∈ jobsWithAnnotationValue jobs key .none := by
          refine List.mem_filter.mpr ⟨member, ?_⟩
          rw [ getAnnotation, held]
          rfl
        have carries := (List.mem_filter.mp (agree.annotated job found)).2
        rw [ hasAnnotation, held] at carries
        cases carries
    | some v => rfl

/-- Several criteria one after the other. -/
theorem matching_eq_foldl (jobs : List AnnotatedJob) (entries : List (String × Yaml)) :
    (jobs.filter fun job => entries.all fun e => (getMeta job e.1).eq e.2) =
      entries.foldl (fun remaining e => jobsMatchingMetadata remaining (single e.1 e.2)) jobs := by
  induction entries generalizing jobs with
  | nil => simp
  | cons e rest ih =>
      rw [List.foldl_cons, ← ih, matching_single, List.filter_filter]
      apply List.filter_congr
      intro job _
      rw [List.all_cons, Bool.and_comm]

/-- **The queries by a value agree**, and find no job without the key, exactly when `None`
is not looked for in jobs that lack it; several criteria are the single ones one after the
other, and find the jobs that all of them find. -/
theorem queriesAgree_iff (jobs : List AnnotatedJob) (key : String) (value : Yaml)
    (criteria : Dict String Yaml) :
    (QueriesAgree jobs key value ↔ NoneIsClear jobs key value) ∧
      jobsMatchingMetadata jobs criteria = criteria.entries.foldl
        (fun remaining e => jobsMatchingMetadata remaining (single e.1 e.2)) jobs ∧
      ∀ job, job ∈ jobsMatchingMetadata jobs criteria ↔
        job ∈ jobs ∧ ∀ e ∈ criteria.entries, job ∈ jobsMatchingMetadata jobs (single e.1 e.2) := by
  refine ⟨⟨fun agree => ?_, fun clear => ?_⟩, matching_eq_foldl jobs criteria.entries,
    fun job => ?_⟩
  · by_cases some_ : value = .none
    · subst some_
      exact .inr (clear_of_queriesAgree agree)
    · exact .inl some_
  · by_cases some_ : value = .none
    · subst some_
      exact queriesAgree_none (clear.resolve_left (· rfl))
    · exact queriesAgree_of_ne_none some_ jobs key
  · rw [jobsMatchingMetadata, List.mem_filter, List.all_eq_true]
    simp only [mem_matching_single]
    constructor
    · rintro ⟨among, all⟩
      exact ⟨among, fun e member => ⟨among, all e member⟩⟩
    · rintro ⟨among, all⟩
      exact ⟨among, fun e member => (all e member).2⟩

/-- A job without metadata and annotations, and a search for `None`. -/
theorem queriesAgree_fails :
    let job : AnnotatedJob := { name := "backup", command := "true", schedule := "* * * * *" }
    ¬ QueriesAgree [job] "owner" .none ∧
      jobsMatchingMetadata [job] (single "owner" .none) = [job] ∧
      jobsWithMetaValue [job] "owner" .none = [] ∧
      jobsWithAnnotationValue [job] "owner" .none = [job] ∧ jobsWithAnnotation [job] "owner" = [] := by
  intro job
  refine ⟨fun agree => ?_, rfl, rfl, rfl, rfl⟩
  cases agree.matchingHasKey job List.mem_cons_self

end Cronwatch.Jobs
