/-
# Jobs.Selector -- jobs by tag, by name and by state

`JobFilter` keeps the jobs that meet every criterion that is given: an empty list of tags and an
empty pattern are none.  `select_jobs` builds one for a configuration.  `job_tags` has the
queries for any and for all of some tags.

`tagQueries_agree` says what they have in common: the selection by tags is the query for any of
them, the query for all of them asks for one after the other, and criteria given one after the
other are criteria given together.  `nameSelection` says what patterns select.
-/
import Cronwatch.Jobs.Grouping
import Cronwatch.Jobs.LoadConfig
import Cronwatch.Runtime.Fnmatch

namespace Cronwatch.Jobs

set_option autoImplicit false

open Cronwatch.Theory Cronwatch.Runtime

/-! ## Tags -/

def jobsMatchingAny (jobs : List JobConfig) (tags : List String) : List JobConfig :=
  let wanted := tags.toFinset
  if wanted = ∅ then jobs else jobs.filter fun job => tagsFor job ∩ wanted ≠ ∅

def jobsMatchingAll (jobs : List JobConfig) (tags : List String) : List JobConfig :=
  let wanted := tags.toFinset
  if wanted = ∅ then jobs else jobs.filter fun job => wanted ⊆ tagsFor job

/-! ## Filters -/

structure JobFilter where
  tags : List String := []
  namePattern : Option String := none
  enabledOnly : Bool := true

def JobFilter.matches (job : JobConfig) (jobFilter : JobFilter) : Bool :=
  if jobFilter.enabledOnly && !job.enabled then false
  else if (jobFilter.namePattern.any fun pattern =>
      pattern ≠ "" && !Fnmatch.fnmatch job.name pattern) then false
  else if !jobFilter.tags.isEmpty && !jobFilter.tags.any (· ∈ job.tags) then false
  else true

def applyFilter (jobs : List JobConfig) (jobFilter : JobFilter) : List JobConfig :=
  jobs.filter jobFilter.matches

def selectJobs (config : CronwatchConfig) (tags : Option (List String) := none)
    (namePattern : Option String := none) (includeDisabled : Bool := false) : List JobConfig :=
  applyFilter config.jobs
    { tags := tags.getD [], namePattern, enabledOnly := !includeDisabled }

/-! ## The criteria one by one -/

/-- Whether a name passes, where an empty pattern is no criterion. -/
def named (namePattern : Option String) (name : String) : Bool :=
  namePattern.all fun pattern => pattern = "" || Fnmatch.fnmatch name pattern

def hasAny (tags : List String) (job : JobConfig) : Bool :=
  tags.isEmpty || tags.any (· ∈ job.tags)

theorem matches_eq (job : JobConfig) (jobFilter : JobFilter) :
    jobFilter.matches job =
      ((!jobFilter.enabledOnly || job.enabled) &&
        (named jobFilter.namePattern job.name && hasAny jobFilter.tags job)) := by
  obtain ⟨tags, namePattern, enabledOnly⟩ := jobFilter
  have name : (namePattern.any fun pattern =>
      pattern ≠ "" && !Fnmatch.fnmatch job.name pattern) = !named namePattern job.name := by
    cases namePattern with
    | none => rfl
    | some pattern => simp [named]
  rw [JobFilter.matches, hasAny, name]
  cases enabledOnly <;> cases job.enabled <;> cases named namePattern job.name <;>
    cases tags.isEmpty <;> cases tags.any (· ∈ job.tags) <;> rfl

theorem jobsMatchingAny_eq (jobs : List JobConfig) (tags : List String) :
    jobsMatchingAny jobs tags = jobs.filter (hasAny tags) := by
  rw [jobsMatchingAny]
  split
  · rename_i none
    rw [List.toFinset_eq_empty_iff] at none
    rw [none]
    exact (List.filter_eq_self.mpr fun _ _ => rfl).symm
  · rename_i some_
    rw [List.toFinset_eq_empty_iff] at some_
    apply List.filter_congr
    intro job _
    rw [hasAny, List.isEmpty_eq_false_iff.mpr some_, Bool.false_or, Bool.eq_iff_iff]
    simp only [decide_eq_true_eq, List.any_eq_true, ← Finset.nonempty_iff_ne_empty, Finset.Nonempty,
      Finset.mem_inter, List.mem_toFinset, mem_tagsFor]
    constructor
    · rintro ⟨tag, has, wanted⟩
      exact ⟨tag, wanted, has⟩
    · rintro ⟨tag, wanted, has⟩
      exact ⟨tag, has, wanted⟩

theorem foldl_jobsWithTag (tags : List String) (jobs : List JobConfig) :
    tags.foldl jobsWithTag jobs = jobs.filter fun job => tags.toFinset ⊆ tagsFor job := by
  induction tags generalizing jobs with
  | nil => simp
  | cons tag rest ih =>
      rw [List.foldl_cons, ih, jobsWithTag, List.filter_filter]
      apply List.filter_congr
      intro job _
      rw [Bool.eq_iff_iff]
      simp [Finset.insert_subset_iff, and_comm]

theorem jobsMatchingAll_eq (jobs : List JobConfig) (tags : List String) :
    jobsMatchingAll jobs tags = tags.foldl jobsWithTag jobs := by
  rw [foldl_jobsWithTag, jobsMatchingAll]
  split
  · rename_i none
    simp [none]
  · rfl

/-! ## What the queries have in common -/

structure TagQueriesAgree (config : CronwatchConfig) (tags : List String)
    (namePattern : Option String) : Prop where
  any : selectJobs config (some tags) none true = jobsMatchingAny config.jobs tags
  all : jobsMatchingAll config.jobs tags = tags.foldl jobsWithTag config.jobs
  allOfAny : (jobsMatchingAll config.jobs tags).Sublist (jobsMatchingAny config.jobs tags)
  steps : selectJobs config (some tags) namePattern =
    jobsMatchingAny
      (selectJobs { config with jobs := config.jobs.filter JobConfig.enabled } none namePattern true) tags

/-- **The queries by tags agree.**  The selection by tags is the query for any of them; the query
for all of them asks for one after the other, and finds some of what the query for any finds;
and the criteria of a selection may be applied one after the other. -/
theorem tagQueries_agree (config : CronwatchConfig) (tags : List String) (namePattern : Option String) :
    TagQueriesAgree config tags namePattern := by
  refine ⟨?_, jobsMatchingAll_eq _ _, ?_, ?_⟩
  · rw [selectJobs, applyFilter, jobsMatchingAny_eq]
    apply List.filter_congr
    intro job _
    rw [matches_eq]
    rfl
  · rw [jobsMatchingAll_eq, foldl_jobsWithTag, jobsMatchingAny_eq]
    apply List.monotone_filter_right
    intro job all
    cases tags with
    | nil => rfl
    | cons tag rest =>
        have has := of_decide_eq_true all (List.mem_toFinset.mpr List.mem_cons_self)
        rw [hasAny, Bool.or_eq_true, List.any_eq_true]
        exact .inr ⟨tag, List.mem_cons_self, decide_eq_true ((mem_tagsFor job tag).mp has)⟩
  · rw [selectJobs, selectJobs, applyFilter, applyFilter, jobsMatchingAny_eq, List.filter_filter,
      List.filter_filter]
    apply List.filter_congr
    intro job _
    rw [matches_eq, matches_eq]
    cases job.enabled <;> cases named namePattern job.name <;> simp [hasAny]

/-! ## Selection by name -/

/-- What patterns select, with the order of the configuration. -/
structure NameSelection (config : CronwatchConfig) : Prop where
  pattern : ∀ pattern ≠ "", selectJobs config none (some pattern) true =
    config.jobs.filter fun job => Fnmatch.fnmatch job.name pattern
  exact : ∀ text ≠ "", Fnmatch.Plain text.toList →
    selectJobs config none (some text) true = config.jobs.filter fun job => job.name = text
  begins : ∀ text, Fnmatch.Plain text.toList → selectJobs config none (some (text ++ "*")) true =
    config.jobs.filter fun job => text.toList <+: job.name.toList
  ends : ∀ text, Fnmatch.Plain text.toList → selectJobs config none (some ("*" ++ text)) true =
    config.jobs.filter fun job => text.toList <:+ job.name.toList
  contains : ∀ text, Fnmatch.Plain text.toList →
    selectJobs config none (some ("*" ++ text ++ "*")) true =
      config.jobs.filter fun job => text.toList <:+: job.name.toList
  escaped : ∀ name ≠ "",
    selectJobs config none (some (String.ofList (Fnmatch.escape name.toList))) true =
      config.jobs.filter fun job => job.name = name

theorem selectJobs_pattern (config : CronwatchConfig) {pattern : String} (given : pattern ≠ "") :
    selectJobs config none (some pattern) true =
      config.jobs.filter fun job => Fnmatch.fnmatch job.name pattern := by
  rw [selectJobs, applyFilter]
  apply List.filter_congr
  intro job _
  rw [matches_eq]
  simp [named, hasAny, given]

/-- A selection by a pattern is the selection by what the pattern is matched by. -/
theorem selectJobs_of_iff (config : CronwatchConfig) {pattern : String} (given : pattern ≠ "")
    {p : String → Prop} [DecidablePred p]
    (decides : ∀ name, Fnmatch.fnmatch name pattern = true ↔ p name) :
    selectJobs config none (some pattern) true = config.jobs.filter fun job => p job.name := by
  rw [selectJobs_pattern config given]
  apply List.filter_congr
  intro job _
  rw [Bool.eq_iff_iff, decides, decide_eq_true_eq]

/-- **What patterns select.**  A text without special characters selects the jobs of that name;
with `*` after it, before it or on both sides the jobs whose name begins with it, ends with it
or contains it; and any name but the empty one, with its special characters escaped, selects
exactly the jobs of that name. -/
theorem nameSelection (config : CronwatchConfig) : NameSelection config where
  pattern _ given := selectJobs_pattern config given
  exact _ given plain := selectJobs_of_iff config given (Fnmatch.fnmatch_plain plain)
  begins _ plain := selectJobs_of_iff config (by simp) (Fnmatch.fnmatch_begins plain)
  ends _ plain := selectJobs_of_iff config (by simp) (Fnmatch.fnmatch_ends plain)
  contains _ plain := selectJobs_of_iff config (by simp) (Fnmatch.fnmatch_contains plain)
  escaped name given := selectJobs_of_iff config (Fnmatch.escape_ne_empty given) fun other =>
    Fnmatch.fnmatch_escape other name

end Cronwatch.Jobs
