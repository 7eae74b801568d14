/-
# Jobs.MetadataReporter -- jobs grouped by a value of their metadata

`report` puts the jobs into a dict under the value that they have for a key, and lists the
groups by the string form of the value.  A value that cannot be hashed makes it raise; NaN
is a key, but equal to nothing, so that its group is never found again.

`report_partitions_iff`: with all other values every job is in one group, which is the one
of its value, whatever the strings are.  Every value has a string form here; the interpreter
raises for an integer with more digits than it prints.
-/
import Mathlib.Algebra.GroupWithZero.Nat
import Mathlib.Data.List.MinMax
import Mathlib.Data.String.Basic
import Cronwatch.Jobs.Metadata
import Cronwatch.Theory.StableSort

namespace Cronwatch.Jobs

set_option autoImplicit false

open Cronwatch.Theory Cronwatch.Runtime

structure MetadataGroupSummary where
  key : String
  value : Yaml
  jobs : List AnnotatedJob := []

namespace MetadataGroupSummary

def jobCount (group : MetadataGroupSummary) : Nat := group.jobs.length

def jobNames (group : MetadataGroupSummary) : List String :=
  sortedBy id false (group.jobs.map fun job => job.name)

end MetadataGroupSummary

structure MetadataReport where
  key : String
  groups : List MetadataGroupSummary := []

namespace MetadataReport

def totalJobs (report : MetadataReport) : Nat :=
  (report.groups.map MetadataGroupSummary.jobCount).sum

def groupFor (value : Yaml) (report : MetadataReport) : Option MetadataGroupSummary :=
  report.groups.find? fun g => g.value.eq value

def largestGroup (report : MetadataReport) : Option MetadataGroupSummary :=
  report.groups.argmax MetadataGroupSummary.jobCount

theorem of_groupFor {value : Yaml} {report : MetadataReport} {g : MetadataGroupSummary}
    (found : report.groupFor value = some g) : g ∈ report.groups ∧ g.value.eq value = true := by
  rw [groupFor] at found
  have equal := List.find?_some found
  exact ⟨List.mem_of_find?_eq_some found, equal⟩

end MetadataReport

/-- The key that a dict makes of a value. -/
def hash : Yaml → Except PyException Scalar.Key
  | .scalar s => .ok s.key
  | .list _ => .error (.typeError "unhashable type: 'list'")
  | .dict _ => .error (.typeError "unhashable type: 'dict'")
  | .set _ => .error (.typeError "unhashable type: 'set'")

/-- Under each key the value that came first, and the jobs. -/
abbrev MetadataBuckets := Dict Scalar.Key (Yaml × List AnnotatedJob)

namespace MetadataReporter

/-- `buckets.setdefault(value, []).append(job)`. -/
def addJob (key : String) (default_ : Yaml) (buckets : MetadataBuckets) (job : AnnotatedJob) :
    Except PyException MetadataBuckets :=
  let value := getMeta job key default_
  match hash value with
  | .error e => .error e
  | .ok k =>
      match buckets.get? k with
      | none => .ok (buckets.set k (value, [job]))
      | some (first, js) => .ok (buckets.set k (first, js ++ [job]))

/-- The groups in the order of `str` of their values. -/
def toReport (str : Yaml → String) (key : String) (buckets : MetadataBuckets) : MetadataReport where
  key := key
  groups := (sortedBy (fun e => str e.2.1) false buckets.entries).map fun e =>
    { key, value := e.2.1, jobs := e.2.2 }

def report (str : Yaml → String) (jobs : List AnnotatedJob) (key : String)
    (default_ : Yaml := .none) : Except PyException MetadataReport :=
  (jobs.foldlM (addJob key default_) .empty).map (toReport str key)

/-! ## What the buckets are -/

/-- The key of a value that can be hashed. -/
def keyOf : Yaml → Scalar.Key
  | .scalar s => s.key
  | _ => .none

/-- The value that a bucket is under: that of its first job. -/
def firstValue (key : String) (default_ : Yaml) : List AnnotatedJob → Yaml
  | [] => .none
  | job :: _ => getMeta job key default_

/-- The jobs by the keys of their values. -/
def bucketsOf (key : String) (default_ : Yaml) (jobs : List AnnotatedJob) : MetadataBuckets :=
  (buckets (fun job => keyOf (getMeta job key default_)) jobs).mapEntries fun _ js =>
    (firstValue key default_ js, js)

theorem hash_eq_ok_iff (v : Yaml) : (∃ k, hash v = .ok k) ↔ ∃ s, v = .scalar s := by
  cases v <;> simp [hash]

variable {key : String} {default_ : Yaml}

/-- One job more, with a value that can be hashed. -/
theorem addJob_bucketsOf (before : List AnnotatedJob) {job : AnnotatedJob} {s : Scalar}
    (scalar : getMeta job key default_ = .scalar s) :
    addJob key default_ (bucketsOf key default_ before) job =
      .ok (bucketsOf key default_ (before ++ [job])) := by
  have k : keyOf (getMeta job key default_) = s.key := by rw [scalar, keyOf]
  have next : bucketsOf key default_ (before ++ [job]) =
      (bucketsOf key default_ before).set s.key (firstValue key default_
        (((buckets (fun job => keyOf (getMeta job key default_)) before).get? s.key).getD [] ++ [job]),
        ((buckets (fun job => keyOf (getMeta job key default_)) before).get? s.key).getD [] ++ [job]) := by
    rw [bucketsOf, buckets_append_single, addToBucket, Dict.mapEntries_set, k]
    rfl
  rw [next, addJob, scalar, hash, bucketsOf]
  dsimp only
  rw [Dict.get?_mapEntries]
  cases held : (buckets (fun job => keyOf (getMeta job key default_)) before).get? s.key with
  | none =>
      rw [Option.map_none]
      dsimp only
      rw [← scalar]
      rfl
  | some js =>
      obtain ⟨-, first, rest, rfl⟩ := bucket_of_mem _ ((Dict.mem_entries_iff _ _ _).mpr held)
      rfl

theorem foldlM_addJob {jobs : List AnnotatedJob}
    (scalars : ∀ job ∈ jobs, ∃ s, getMeta job key default_ = .scalar s) :
    jobs.foldlM (addJob key default_) .empty = .ok (bucketsOf key default_ jobs) := by
  induction jobs using List.reverseRecOn with
  | nil => rfl
  | append_singleton before job ih =>
      obtain ⟨s, scalar⟩ := scalars job (by simp)
      rw [List.foldlM_append, ih fun j member => scalars j (by simp [member])]
      show (addJob key default_ (bucketsOf key default_ before) job >>= pure) = _
      rw [bind_pure, addJob_bucketsOf before scalar]

/-- A report is only made of values that can be hashed. -/
theorem scalars_of_returned {jobs : List AnnotatedJob} {d d' : MetadataBuckets}
    (returned : jobs.foldlM (addJob key default_) d = .ok d') :
    ∀ job ∈ jobs, ∃ s, getMeta job key default_ = .scalar s := by
  induction jobs generalizing d with
  | nil => simp
  | cons job rest ih =>
      rw [List.foldlM_cons] at returned
      obtain ⟨next, added, later⟩ := returned_of_bind returned
      rw [List.forall_mem_cons]
      refine ⟨(hash_eq_ok_iff _).mp ?_, ih later⟩
      rw [addJob] at added
      cases hashed : hash (getMeta job key default_) with
      | error e =>
          rw [hashed] at added
          cases added
      | ok k => exact ⟨k, rfl⟩

/-! ## The partition -/

/-- A value that is a key and equal to itself: it can be hashed and is not NaN. -/
def Regular (v : Yaml) : Prop := ∃ s, v = .scalar s ∧ s.isNan = false

/-- Every job in the one group of its value, and every group found by a value of its jobs. -/
structure Partitions (jobs : List AnnotatedJob) (key : String) (default_ : Yaml)
    (report : MetadataReport) : Prop where
  groups : ∀ g ∈ report.groups,
    g.jobs = jobs.filter fun job => g.value.eq (getMeta job key default_)
  covers : (report.groups.flatMap MetadataGroupSummary.jobs).Perm jobs
  once : ∀ job ∈ jobs, report.groups.countP (fun g => g.value.eq (getMeta job key default_)) = 1
  total : report.totalJobs = jobs.length
  found : ∀ job ∈ jobs, ∃ g ∈ report.groups,
    report.groupFor (getMeta job key default_) = some g ∧ job ∈ g.jobs

theorem scalar_eq_iff {a b : Scalar} (regular : b.isNan = false) :
    (Yaml.scalar a).eq (.scalar b) = true ↔ a.key = b.key := by
  rw [Yaml.eq, Scalar.eq, decide_eq_true_eq]
  exact and_iff_left_of_imp fun same => (Scalar.isNan_of_key_eq same).trans regular

/-- A bucket has the jobs of its key, and is under the value of one of them. -/
theorem mem_bucketsOf {jobs : List AnnotatedJob} {e : Scalar.Key × Yaml × List AnnotatedJob}
    (member : e ∈ (bucketsOf key default_ jobs).entries) :
    (e.2.2 = jobs.filter fun job => keyOf (getMeta job key default_) = e.1) ∧
      ∃ first ∈ jobs, e.2.1 = getMeta first key default_ ∧ keyOf e.2.1 = e.1 := by
  rw [bucketsOf, Dict.entries_mapEntries] at member
  obtain ⟨e', among, rfl⟩ := List.mem_map.mp member
  obtain ⟨items, first, rest, cons_⟩ := bucket_of_mem _ among
  have inside : first ∈ e'.2 := cons_ ▸ List.mem_cons_self
  rw [items] at inside
  obtain ⟨mem, has⟩ := List.mem_filter.mp inside
  refine ⟨items, first, mem, ?_, ?_⟩
  · dsimp only
    rw [cons_, firstValue]
  · dsimp only
    rw [cons_, firstValue]
    exact of_decide_eq_true has

/-- The value of a bucket is equal to that of a job when the job has its key. -/
theorem value_eq_iff {jobs : List AnnotatedJob}
    (regular : ∀ job ∈ jobs, Regular (getMeta job key default_))
    {e : Scalar.Key × Yaml × List AnnotatedJob}
    (member : e ∈ (bucketsOf key default_ jobs).entries) {job : AnnotatedJob} (among : job ∈ jobs) :
    e.2.1.eq (getMeta job key default_) = true ↔ keyOf (getMeta job key default_) = e.1 := by
  obtain ⟨-, first, mem, value, has⟩ := mem_bucketsOf member
  obtain ⟨a, scalar, -⟩ := regular first mem
  obtain ⟨b, scalar', notNan⟩ := regular job among
  rw [value, scalar] at has ⊢
  rw [scalar', scalar_eq_iff notNan, ← has, eq_comm]
  rfl

/-- Sorting only moves the buckets. -/
theorem mem_groups {str : Yaml → String} {buckets : MetadataBuckets} {g : MetadataGroupSummary}
    (member : g ∈ (toReport str key buckets).groups) :
    ∃ e ∈ buckets.entries, g.value = e.2.1 ∧ g.jobs = e.2.2 := by
  obtain ⟨e, among, rfl⟩ := List.mem_map.mp member
  exact ⟨e, (perm_sortedBy _).mem_iff.mp among, rfl, rfl⟩

/-- The groups together have every job. -/
theorem perm_groups (str : Yaml → String) (jobs : List AnnotatedJob) :
    ((toReport str key (bucketsOf key default_ jobs)).groups.flatMap
      MetadataGroupSummary.jobs).Perm jobs := by
  rw [toReport, List.flatMap_map]
  refine ((perm_sortedBy _).flatMap_right _).trans ?_
  rw [bucketsOf, Dict.entries_mapEntries, List.flatMap_map]
  exact perm_buckets _ jobs

/-- One group has a value equal to that of a job. -/
theorem countP_groups (str : Yaml → String) {jobs : List AnnotatedJob}
    (regular : ∀ job ∈ jobs, Regular (getMeta job key default_)) {job : AnnotatedJob}
    (mem : job ∈ jobs) : (toReport str key (bucketsOf key default_ jobs)).groups.countP
      (fun g => g.value.eq (getMeta job key default_)) = 1 := by
  have known : keyOf (getMeta job key default_) ∈ (bucketsOf key default_ jobs).keys := by
    rw [bucketsOf, Dict.keys, Dict.entries_mapEntries, List.map_map]
    exact mem_keys_of_mem (fun job => keyOf (getMeta job key default_)) mem
  have one := List.count_eq_one_of_mem (bucketsOf key default_ jobs).nodup_keys known
  rw [toReport, List.countP_map, (perm_sortedBy _).countP_eq, ← one, List.count, Dict.keys,
    List.countP_map]
  refine List.countP_congr fun e held => (value_eq_iff regular held mem).trans ?_
  exact eq_comm.trans beq_iff_eq.symm

/-- **Regular values** are the groups of a partition. -/
theorem partitions_of_regular (str : Yaml → String) {jobs : List AnnotatedJob}
    (regular : ∀ job ∈ jobs, Regular (getMeta job key default_)) :
    Partitions jobs key default_ (toReport str key (bucketsOf key default_ jobs)) := by
  have groups : ∀ g ∈ (toReport str key (bucketsOf key default_ jobs)).groups,
      g.jobs = jobs.filter fun job => g.value.eq (getMeta job key default_) := by
    intro g member
    obtain ⟨e, held, value, items⟩ := mem_groups member
    rw [value, items, (mem_bucketsOf held).1]
    apply List.filter_congr
    intro job mem
    rw [Bool.eq_iff_iff, decide_eq_true_eq, value_eq_iff regular held mem]
  have covers : ((toReport str key (bucketsOf key default_ jobs)).groups.flatMap
      MetadataGroupSummary.jobs).Perm jobs := perm_groups str jobs
  have once := fun job (mem : job ∈ jobs) => countP_groups str regular mem
  refine ⟨groups, covers, once, ?_, fun job mem => ?_⟩
  · rw [← covers.length_eq, List.length_flatMap]
    rfl
  · have some_ : ((toReport str key (bucketsOf key default_ jobs)).groupFor
        (getMeta job key default_)).isSome := by
      rw [MetadataReport.groupFor, List.find?_isSome, ← List.countP_pos_iff, once job mem]
      exact Nat.one_pos
    obtain ⟨g, found⟩ := Option.isSome_iff_exists.mp some_
    obtain ⟨among, equal⟩ := MetadataReport.of_groupFor found
    refine ⟨g, among, found, ?_⟩
    rw [groups g among, List.mem_filter]
    exact ⟨mem, equal⟩

/-- **The report partitions the jobs** exactly when the value of each can be hashed and is
not NaN. -/
theorem report_partitions_iff (str : Yaml → String) (jobs : List AnnotatedJob) (key : String)
    (default_ : Yaml) :
    (∃ r, report str jobs key default_ = .ok r ∧ Partitions jobs key default_ r) ↔
      ∀ job ∈ jobs, Regular (getMeta job key default_) := by
  constructor
  · rintro ⟨r, returned, partitions⟩ job mem
    rw [report] at returned
    cases made : jobs.foldlM (addJob key default_) .empty with
    | error e =>
        rw [made] at returned
        cases returned
    | ok d =>
        obtain ⟨s, scalar⟩ := scalars_of_returned made job mem
        refine ⟨s, scalar, ?_⟩
        obtain ⟨g, -, found, -⟩ := partitions.found job mem
        have equal := (MetadataReport.of_groupFor found).2
        rw [scalar] at equal
        cases value : g.value with
        | scalar a =>
            rw [value, Yaml.eq, Scalar.eq, decide_eq_true_eq] at equal
            rw [← Scalar.isNan_of_key_eq equal.1]
            exact equal.2
        | _ =>
            rw [value] at equal
            cases equal
  · intro regular
    have scalars : ∀ job ∈ jobs, ∃ s, getMeta job key default_ = .scalar s := fun job mem =>
      (regular job mem).imp fun _ is => is.1
    have made := foldlM_addJob scalars
    refine ⟨_, ?_, partitions_of_regular str regular⟩
    rw [report, made]
    rfl

/-- A job with a list under the key. -/
theorem report_unhashable :
    let job : AnnotatedJob :=
      { name := "backup", command := "true", schedule := "@daily"
        metadata := .value (.dict [(.str "owner",
          .list [.scalar (.str "alice"), .scalar (.str "bob")])]) }
    report (fun _ => "") [job] "owner" = .error (.typeError "unhashable type: 'list'") ∧
      ¬ ∃ r, report (fun _ => "") [job] "owner" = .ok r ∧ Partitions [job] "owner" .none r := by
  intro job
  have raised : report (fun _ => "") [job] "owner" = .error (.typeError "unhashable type: 'list'") :=
    rfl
  refine ⟨raised, fun ⟨r, returned, _⟩ => ?_⟩
  rw [raised] at returned
  cases returned

end MetadataReporter

end Cronwatch.Jobs
