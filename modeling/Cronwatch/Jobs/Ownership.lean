/-
# Jobs.Ownership -- which team owns a job, and the report of it

The team of a job is a string in its metadata.  `jobs_owned_by_team` compares teams in
lower case, but `group_by_team`, `all_teams` and the report tell them apart as they are
written.  So the counts of the report are those of the query exactly when no team is
written in two ways (`ownershipViewsAgree_iff`).
-/
import Mathlib.Algebra.GroupWithZero.Nat
import Mathlib.Data.String.Basic
import Cronwatch.Jobs.Metadata
import Cronwatch.Theory.StableSort

namespace Cronwatch.Jobs

set_option autoImplicit false

open Cronwatch.Theory Cronwatch.Runtime

/-- `str.lower`.  What it makes of single characters is left open: no character is lost. -/
structure Lowering where
  lower : String → String
  lower_eq_empty_iff : ∀ s, lower s = "" ↔ s = ""

/-- `str.lower` on texts of ASCII characters. -/
def asciiLowering : Lowering where
  lower s := String.ofList (s.toList.map Char.toLower)
  lower_eq_empty_iff s := by
    rw [← String.toList_eq_nil_iff, String.toList_ofList, List.map_eq_nil_iff,
      String.toList_eq_nil_iff]

structure OwnerInfo where
  team : Option String := none
  email : Yaml := .none
  slack : Yaml := .none
  extra : List (Scalar × Yaml) := []

namespace OwnerInfo

def hasContact (info : OwnerInfo) : Bool := info.email.truthy || info.slack.truthy

/-- `info == OwnerInfo()`; nothing but `None` is equal to `None`. -/
def isDefault (info : OwnerInfo) : Bool :=
  info.team.isNone && info.email.isNone && info.slack.isNone && info.extra.isEmpty

end OwnerInfo

/-- The entries of the dict under `ownership`, none if there is no dict. -/
def ownershipOf (job : AnnotatedJob) : List (Scalar × Yaml) :=
  match valueUnder "ownership" (metadataFor job) with
  | some (.dict entries) => entries
  | _ => []

/-- A job whose team, if it has one, is a string. -/
structure OwnedJob extends AnnotatedJob where
  teamIsText : ∀ v, valueUnder "team" (ownershipOf toAnnotatedJob) = some v →
    v = .none ∨ ∃ s, v = .scalar (.str s)

/-- `None` or a string. -/
def textOf : Option Yaml → Option String
  | some (.scalar (.str s)) => some s
  | _ => none

def ownerFor (job : OwnedJob) : OwnerInfo :=
  let ownership := ownershipOf job.toAnnotatedJob
  { team := textOf (valueUnder "team" ownership)
    email := (valueUnder "email" ownership).getD .none
    slack := (valueUnder "slack" ownership).getD .none
    extra := ownership.filter fun e => e.1 ∉ [Scalar.str "team", .str "email", .str "slack"] }

def jobsOwnedByTeam (str : Lowering) (jobs : List OwnedJob) (team : String) : List OwnedJob :=
  jobs.filter fun j => str.lower ((ownerFor j).team.getD "") = str.lower team

def jobsWithoutOwner (jobs : List OwnedJob) : List OwnedJob :=
  jobs.filter fun j => (ownerFor j).isDefault

def allTeams (jobs : List OwnedJob) : List String :=
  sortedSet (jobs.filterMap fun j => (ownerFor j).team.filter fun team => team ≠ "")

def groupByTeam (jobs : List OwnedJob) : Dict (Option String) (List OwnedJob) :=
  buckets (fun j => (ownerFor j).team) jobs

/-! ## The report -/

/-- `sorted(j.name for j in jobs)`. -/
def sortedNames (jobs : List OwnedJob) : List String :=
  sortedBy id false (jobs.map fun j => j.name)

structure OwnershipSummary where
  totalJobs : Int
  ownedJobs : Int
  unownedJobs : Int
  teams : List String
  jobsMissingContact : List String
  jobsWithoutOwner : List String

structure OwnershipReport where
  summary : OwnershipSummary
  byTeam : Dict (Option String) (List String)

def OwnershipReport.teamJobCount (team : String) (report : OwnershipReport) : Nat :=
  ((report.byTeam.get? (some team)).getD []).length

def buildOwnershipReport (jobs : List OwnedJob) : OwnershipReport :=
  let unowned := jobsWithoutOwner jobs
  let missingContact := jobs.filter fun j =>
    !(ownerFor j).isDefault && !(ownerFor j).hasContact
  { summary :=
      { totalJobs := jobs.length
        ownedJobs := jobs.length - unowned.length
        unownedJobs := unowned.length
        teams := allTeams jobs
        jobsMissingContact := sortedNames missingContact
        jobsWithoutOwner := sortedNames unowned }
    byTeam := (groupByTeam jobs).mapEntries fun _ members => sortedNames members }

/-! ## The views -/

theorem mem_allTeams (jobs : List OwnedJob) (team : String) :
    team ∈ allTeams jobs ↔ team ≠ "" ∧ ∃ j ∈ jobs, (ownerFor j).team = some team := by
  simp only [allTeams, mem_sortedSet, List.mem_filterMap, Option.filter_eq_some_iff,
    decide_eq_true_eq]
  constructor
  · rintro ⟨j, member, owned, named⟩
    exact ⟨named, j, member, owned⟩
  · rintro ⟨named, j, member, owned⟩
    exact ⟨j, member, owned, named⟩

theorem perm_sortedNames (jobs : List OwnedJob) :
    (sortedNames jobs).Perm (jobs.map fun j => j.name) :=
  perm_sortedBy _

/-- The report counts the jobs whose team is written like this. -/
theorem teamJobCount_eq (jobs : List OwnedJob) (team : String) :
    (buildOwnershipReport jobs).teamJobCount team =
      (jobs.filter fun j => (ownerFor j).team = some team).length := by
  have bucket := get?_buckets (fun j => (ownerFor j).team) jobs (some team)
  rw [OwnershipReport.teamJobCount, buildOwnershipReport]
  dsimp only
  rw [Dict.get?_mapEntries, ← bucket, groupByTeam]
  cases (buckets (fun j => (ownerFor j).team) jobs).get? (some team) with
  | none => rfl
  | some members =>
      rw [Option.map_some, Option.getD_some, Option.getD_some, (perm_sortedNames members).length_eq,
        List.length_map]

/-- The names in the teams are those of the jobs. -/
theorem perm_byTeam (jobs : List OwnedJob) :
    ((buildOwnershipReport jobs).byTeam.entries.flatMap Prod.snd).Perm
      (jobs.map fun j => j.name) := by
  have named := (perm_buckets (fun j => (ownerFor j).team) jobs).map fun j => j.name
  rw [List.map_flatMap] at named
  refine List.Perm.trans ?_ named
  rw [buildOwnershipReport, Dict.entries_mapEntries, List.flatMap_map]
  exact List.Perm.flatMap_left _ fun e _ => perm_sortedNames e.2

/-- No team is written in two ways that differ in case only. -/
def OneSpelling (str : Lowering) (jobs : List OwnedJob) : Prop :=
  ∀ j ∈ jobs, ∀ j' ∈ jobs, ∀ team team', (ownerFor j).team = some team →
    (ownerFor j').team = some team' → str.lower team = str.lower team' → team = team'

structure OwnershipViewsAgree (str : Lowering) (jobs : List OwnedJob) : Prop where
  counts : ∀ team ∈ allTeams jobs,
    (buildOwnershipReport jobs).teamJobCount team = (jobsOwnedByTeam str jobs team).length
  everyJob : ((buildOwnershipReport jobs).byTeam.entries.flatMap Prod.snd).Perm
    (jobs.map fun j => j.name)
  total : (buildOwnershipReport jobs).summary.ownedJobs +
    (buildOwnershipReport jobs).summary.unownedJobs = (buildOwnershipReport jobs).summary.totalJobs
  unowned : (buildOwnershipReport jobs).summary.unownedJobs = (jobsWithoutOwner jobs).length

/-- Whatever is written like the team is owned by the team. -/
theorem sublist_owned (str : Lowering) (jobs : List OwnedJob) (team : String) :
    (jobs.filter fun j => (ownerFor j).team = some team).Sublist (jobsOwnedByTeam str jobs team) := by
  apply List.monotone_filter_right jobs
  intro j is
  rw [decide_eq_true_eq] at is ⊢
  rw [is, Option.getD_some]

theorem counts_of_oneSpelling {str : Lowering} {jobs : List OwnedJob}
    (one : OneSpelling str jobs) {team : String} (known : team ∈ allTeams jobs) :
    (buildOwnershipReport jobs).teamJobCount team = (jobsOwnedByTeam str jobs team).length := by
  obtain ⟨named, j, member, owned⟩ := (mem_allTeams jobs team).mp known
  rw [teamJobCount_eq, jobsOwnedByTeam]
  refine congrArg List.length (List.filter_congr fun j' member' => decide_eq_decide.mpr ?_)
  constructor
  · intro is
    rw [is, Option.getD_some]
  · intro same
    cases written : (ownerFor j').team with
    | none =>
        rw [written, Option.getD_none, (str.lower_eq_empty_iff "").mpr rfl, eq_comm,
          str.lower_eq_empty_iff] at same
        exact absurd same named
    | some team' =>
        rw [written, Option.getD_some] at same
        rw [one j' member' j member team' team written owned same]

theorem oneSpelling_of_counts {str : Lowering} {jobs : List OwnedJob}
    (counts : ∀ team ∈ allTeams jobs,
      (buildOwnershipReport jobs).teamJobCount team = (jobsOwnedByTeam str jobs team).length) :
    OneSpelling str jobs := by
  intro j member j' member' team team' owned owned' same
  by_cases named : team = ""
  · subst named
    rw [(str.lower_eq_empty_iff "").mpr rfl, eq_comm, str.lower_eq_empty_iff] at same
    exact same.symm
  · have count := counts team ((mem_allTeams jobs team).mpr ⟨named, j, member, owned⟩)
    rw [teamJobCount_eq] at count
    have equal := (sublist_owned str jobs team).eq_of_length count
    have among : j' ∈ jobsOwnedByTeam str jobs team := by
      refine List.mem_filter.mpr ⟨member', decide_eq_true ?_⟩
      rw [owned', Option.getD_some, same]
    rw [← equal, List.mem_filter, decide_eq_true_eq, owned'] at among
    exact (Option.some_inj.mp among.2).symm

/-- **The views of ownership agree** exactly when no team is written in two ways. -/
theorem ownershipViewsAgree_iff (str : Lowering) (jobs : List OwnedJob) :
    OwnershipViewsAgree str jobs ↔ OneSpelling str jobs := by
  constructor
  · exact fun agree => oneSpelling_of_counts agree.counts
  · intro one
    refine ⟨fun team known => counts_of_oneSpelling one known, perm_byTeam jobs, ?_, rfl⟩
    simp [buildOwnershipReport]

/-- Two jobs of one team, which is written in two ways. -/
theorem ownershipViewsAgree_fails :
    let owned (name team : String) : OwnedJob :=
      { name, command := "true", schedule := "@daily"
        metadata := .value (.dict [(.str "ownership", .dict [(.str "team", .scalar (.str team))])])
        teamIsText := fun _ found => .inr ⟨team, (Option.some_inj.mp found).symm⟩ }
    let jobs := [owned "a" "platform", owned "c" "Platform"]
    ¬ OwnershipViewsAgree asciiLowering jobs ∧ "platform" ∈ allTeams jobs ∧
      (buildOwnershipReport jobs).teamJobCount "platform" = 1 ∧
      (jobsOwnedByTeam asciiLowering jobs "platform").length = 2 := by
  intro owned jobs
  have known : "platform" ∈ allTeams jobs := by
    rw [mem_allTeams]
    exact ⟨by decide, owned "a" "platform", List.mem_cons_self, rfl⟩
  have counted : (buildOwnershipReport jobs).teamJobCount "platform" = 1 := by
    rw [teamJobCount_eq]
    rfl
  have queried : (jobsOwnedByTeam asciiLowering jobs "platform").length = 2 := by decide
  refine ⟨fun agree => ?_, known, counted, queried⟩
  have same := agree.counts "platform" known
  rw [counted, queried] at same
  cases same

end Cronwatch.Jobs
