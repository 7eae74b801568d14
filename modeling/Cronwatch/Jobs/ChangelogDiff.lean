/-
# Jobs.ChangelogDiff -- the changes between two snapshots of a job

`diff_snapshots` goes through the keys of both snapshots in sorted order, and records a
change where `before.fields.get(key)` and `after.fields.get(key)` are different.  A key that
is absent reads as `None`, so one that comes or goes with a null in it is passed over
(`diffSnapshots_exact_iff`).

`ne` is what `old_val != new_val` answers; for values that are objects their classes say so.
The store is anything with a `record`, and `recordAll_native` is about `ChangelogStore`.
-/
import Cronwatch.Jobs.Changelog
import Mathlib.Data.List.Sort
import Mathlib.Data.String.Basic

namespace Cronwatch.Jobs

set_option autoImplicit false

open Cronwatch.Theory Cronwatch.Runtime

structure JobSnapshot where
  jobName : String
  capturedAt : DateTime
  fields : Dict String PyValue := .empty

namespace JobSnapshot

/-- `fields.get(key)`. -/
def field (key : String) (snapshot : JobSnapshot) : PyValue :=
  (snapshot.fields.get? key).getD .none

/-- `sorted(set(before.fields) | set(after.fields))`. -/
def allKeys (before after : JobSnapshot) : List String :=
  (Enumeration.ofList (before.fields.keys ++ after.fields.keys)).elements.insertionSort (· ≤ ·)

/-- The entry for a changed key. -/
def change (before after : JobSnapshot) (ts : DateTime) (key : String) : ChangelogEntry where
  jobName := .str after.jobName
  changedAt := ts
  fieldName := .str key
  oldValue := before.field key
  newValue := after.field key

section Diff

universe u

variable {σ : Type u} (ne : PyValue → PyValue → Bool)
  (record : ChangelogEntry → σ → Except PyException Unit × σ)

def diffLoop (before after : JobSnapshot) (ts : DateTime) :
    List String → List ChangelogEntry → σ → Except PyException (List ChangelogEntry) × σ
  | [], recorded, store => (.ok recorded, store)
  | key :: rest, recorded, store =>
      if ne (before.field key) (after.field key) then
        match record (change before after ts key) store with
        | (.error e, store) => (.error e, store)
        | (.ok (), store) =>
            diffLoop before after ts rest (recorded ++ [change before after ts key]) store
      else diffLoop before after ts rest recorded store

def diffSnapshots (utcnow : DateTime) (before after : JobSnapshot) (store : σ)
    (now : Option DateTime) : Except PyException (List ChangelogEntry) × σ :=
  diffLoop ne record before after (now.getD utcnow) (allKeys before after) [] store

/-- The store is given these entries, one after the other, until it refuses one. -/
def recordAll : List ChangelogEntry → σ → Except PyException Unit × σ
  | [], store => (.ok (), store)
  | entry :: rest, store =>
      match record entry store with
      | (.error e, store) => (.error e, store)
      | (.ok (), store) => recordAll rest store

/-! ## What should be recorded -/

/-- The key is in only one of the snapshots, or has different values in them. -/
def Changed (before after : JobSnapshot) (key : String) : Prop :=
  match before.fields.get? key, after.fields.get? key with
  | none, none => False
  | some old, some new => ne old new = true
  | _, _ => True

/-- **The changes are exact**: the changed keys in ascending order, each once, are what is
returned and what the store is given; nothing is returned only where nothing is changed. -/
structure Exact (before after : JobSnapshot) (ts : DateTime) (store : σ)
    (returned : List ChangelogEntry) (store' : σ) : Prop where
  returns : ∃ keys : List String, keys.Pairwise (· < ·) ∧
    (∀ key, key ∈ keys ↔ Changed ne before after key) ∧
      returned = keys.map (change before after ts)
  records : recordAll record returned store = (.ok (), store')
  nothing : returned = [] →
    ∀ key, match before.fields.get? key, after.fields.get? key with
      | none, none => True
      | some old, some new => ne old new = false
      | _, _ => False

/-- A key that only one of the snapshots has is not null there. -/
def NoLoneNull (before after : JobSnapshot) : Prop :=
  ∀ key value,
    (before.fields.get? key = some value → after.fields.get? key = none → ne value .none = true) ∧
      (before.fields.get? key = none → after.fields.get? key = some value → ne .none value = true)

/-- The keys that are recorded. -/
def changedKeys (before after : JobSnapshot) : List String :=
  (allKeys before after).filter fun key => ne (before.field key) (after.field key)

/-! ## What is recorded -/

variable {ne} {record} {before after : JobSnapshot}

theorem mem_allKeys (key : String) : key ∈ allKeys before after ↔
    (before.fields.get? key).isSome ∨ (after.fields.get? key).isSome := by
  rw [allKeys, List.mem_insertionSort, Enumeration.mem_ofList, List.mem_append, Dict.mem_keys_iff,
    Dict.mem_keys_iff]

/-- Every key is gone through once, in ascending order. -/
theorem pairwise_allKeys (before after : JobSnapshot) : (allKeys before after).Pairwise (· < ·) := by
  have sorted := List.pairwise_insertionSort (· ≤ ·)
    (Enumeration.ofList (before.fields.keys ++ after.fields.keys)).elements
  have distinct := (List.perm_insertionSort (· ≤ ·) _).nodup_iff.mpr
    (Enumeration.ofList (before.fields.keys ++ after.fields.keys)).nodup
  exact sorted.imp₂ (fun _ _ le ne => lt_of_le_of_ne le ne) distinct

/-- **The loop** gives the store the changes of the keys that it has still to go through. -/
theorem diffLoop_eq (ts : DateTime) (keys : List String) (recorded : List ChangelogEntry)
    (store : σ) :
    diffLoop ne record before after ts keys recorded store =
      let entries := (keys.filter fun key => ne (before.field key) (after.field key)).map
        (change before after ts)
      match recordAll record entries store with
      | (.error e, store) => (.error e, store)
      | (.ok (), store) => (.ok (recorded ++ entries), store) := by
  induction keys generalizing recorded store with
  | nil => simp [diffLoop, recordAll]
  | cons key rest ih =>
      rw [diffLoop, List.filter_cons]
      split
      · dsimp only
        rw [List.map_cons, recordAll]
        cases made : record (change before after ts key) store with
        | mk outcome store' =>
            cases outcome with
            | error e => rfl
            | ok _ =>
                dsimp only
                rw [ih]
                simp only [List.append_assoc, List.singleton_append]
      · rw [ih]

/-- What a call that returns has recorded. -/
theorem diffSnapshots_returns {utcnow : DateTime} {store store' : σ} {now : Option DateTime}
    {returned : List ChangelogEntry}
    (done : diffSnapshots ne record utcnow before after store now = (.ok returned, store')) :
    returned = (changedKeys ne before after).map (change before after (now.getD utcnow)) ∧
      recordAll record returned store = (.ok (), store') := by
  rw [diffSnapshots, diffLoop_eq] at done
  dsimp only at done
  rw [← changedKeys] at done
  cases given : recordAll record
      ((changedKeys ne before after).map (change before after (now.getD utcnow))) store with
  | mk outcome store'' =>
      rw [given] at done
      cases outcome with
      | error e => cases done
      | ok _ =>
          cases done
          exact ⟨rfl, given⟩

theorem mem_changedKeys (key : String) : key ∈ changedKeys ne before after ↔
    ((before.fields.get? key).isSome ∨ (after.fields.get? key).isSome) ∧
      ne (before.field key) (after.field key) = true := by
  rw [changedKeys, List.mem_filter, mem_allKeys]

/-- Every recorded key is changed. -/
theorem changed_of_mem {key : String} (member : key ∈ changedKeys ne before after) :
    Changed ne before after key := by
  obtain ⟨present, differs⟩ := (mem_changedKeys key).mp member
  rw [field, field] at differs
  rw [Changed]
  cases old : before.fields.get? key with
  | none =>
      cases new : after.fields.get? key with
      | none => simp [old, new] at present
      | some value => trivial
  | some value =>
      cases new : after.fields.get? key with
      | none => trivial
      | some value' => simpa [old, new] using differs

/-- **Every changed key is recorded** exactly when no key comes or goes with a null. -/
theorem recorded_iff : (∀ key, Changed ne before after key → key ∈ changedKeys ne before after) ↔
    NoLoneNull ne before after := by
  constructor
  · intro all key value
    constructor
    · intro old new
      have recorded := all key (by rw [Changed, old, new]; trivial)
      simpa [field, old, new] using ((mem_changedKeys key).mp recorded).2
    · intro old new
      have recorded := all key (by rw [Changed, old, new]; trivial)
      simpa [field, old, new] using ((mem_changedKeys key).mp recorded).2
  · intro noNull key changed
    rw [mem_changedKeys, field, field]
    rw [Changed] at changed
    cases old : before.fields.get? key with
    | none =>
        cases new : after.fields.get? key with
        | none =>
            rw [old, new] at changed
            exact changed.elim
        | some value => exact ⟨.inr rfl, (noNull key value).2 old new⟩
    | some value =>
        cases new : after.fields.get? key with
        | none => exact ⟨.inl rfl, (noNull key value).1 old new⟩
        | some value' =>
            rw [old, new] at changed
            exact ⟨.inl rfl, changed⟩

/-- **When the diff is exact**: when no key comes or goes with a null in it. -/
theorem diffSnapshots_exact_iff {utcnow : DateTime} {store store' : σ} {now : Option DateTime}
    {returned : List ChangelogEntry}
    (done : diffSnapshots ne record utcnow before after store now = (.ok returned, store')) :
    Exact ne record before after (now.getD utcnow) store returned store' ↔
      NoLoneNull ne before after := by
  obtain ⟨made, given⟩ := diffSnapshots_returns done
  rw [← recorded_iff]
  constructor
  · intro exact_ key changed
    obtain ⟨keys, -, members, same⟩ := exact_.returns
    have names : (keys.map (change before after (now.getD utcnow))).map ChangelogEntry.fieldName =
        ((changedKeys ne before after).map (change before after (now.getD utcnow))).map
          ChangelogEntry.fieldName := by rw [← same, made]
    rw [List.map_map, List.map_map] at names
    have injective : Function.Injective
        (ChangelogEntry.fieldName ∘ change before after (now.getD utcnow)) := by
      intro key key' eq
      exact PyValue.str.inj eq
    rw [← injective.list_map names]
    exact (members key).mpr changed
  · intro all
    have members : ∀ key, key ∈ changedKeys ne before after ↔ Changed ne before after key :=
      fun key => ⟨changed_of_mem, all key⟩
    refine ⟨⟨changedKeys ne before after, (pairwise_allKeys before after).filter _, members, made⟩,
      given, fun empty key => ?_⟩
    have unchanged : ¬ Changed ne before after key := by
      rw [← members key]
      rw [made, List.map_eq_nil_iff] at empty
      simp [empty]
    rw [Changed] at unchanged
    cases old : before.fields.get? key with
    | none =>
        cases new : after.fields.get? key with
        | none => trivial
        | some value => simp [old, new] at unchanged
    | some value =>
        cases new : after.fields.get? key with
        | none => simp [old, new] at unchanged
        | some value' => simpa [old, new] using unchanged

end Diff

/-- `!=` of strings, integers and `None`. -/
def plainNe : PyValue → PyValue → Bool
  | .none, .none => false
  | .str s, .str s' => s ≠ s'
  | .number (.int n), .number (.int n') => n ≠ n'
  | _, _ => true

/-- A snapshot of the job with one field. -/
def withField (day : Int) (key : String) (value : PyValue) : JobSnapshot where
  jobName := "backup"
  capturedAt := seconds (86400 * day)
  fields := Dict.empty.set key value

/-- `record` of a changelog whose directory is there. -/
def keep (entry : ChangelogEntry) (s : ChangelogStore) : Except PyException Unit × ChangelogStore :=
  s.record (.ok ()) ChangelogStore.noon entry

theorem schedule_exact :
    Exact plainNe keep (withField 0 "schedule" (.str "0 1 * * *"))
      (withField 1 "schedule" (.str "0 2 * * *")) (seconds 1717243200) { file := none }
      [change (withField 0 "schedule" (.str "0 1 * * *")) (withField 1 "schedule" (.str "0 2 * * *"))
        (seconds 1717243200) "schedule"]
      (keep (change (withField 0 "schedule" (.str "0 1 * * *"))
        (withField 1 "schedule" (.str "0 2 * * *")) (seconds 1717243200) "schedule")
        { file := none }).2 := by
  have done : diffSnapshots plainNe keep 0 (withField 0 "schedule" (.str "0 1 * * *"))
      (withField 1 "schedule" (.str "0 2 * * *")) { file := none } (some (seconds 1717243200)) =
        (.ok [_], _) := rfl
  refine (diffSnapshots_exact_iff done).mpr fun key value => ?_
  simp only [withField, Dict.get?_set, Dict.get?_empty]
  split <;> simp

/-- A field that is dropped with a null in it. -/
theorem lone_null_unseen :
    diffSnapshots plainNe keep 0 (withField 0 "timeout" .none)
        { withField 1 "timeout" .none with fields := .empty } { file := none } none =
          (.ok [], { file := none }) ∧
      ¬ Exact plainNe keep (withField 0 "timeout" .none)
        { withField 1 "timeout" .none with fields := .empty } 0 { file := none } []
        { file := none } := by
  refine ⟨rfl, fun exact_ => ?_⟩
  exact exact_.nothing rfl "timeout"

end JobSnapshot

namespace ChangelogStore

variable {iso : IsoFormat}

/-- **A changelog takes native entries** in order, behind the ones that it has. -/
theorem recordAll_native {entries : List ChangelogEntry} (native : ∀ entry ∈ entries, entry.Native)
    {s : ChangelogStore} {items : List PyValue} {before : List ChangelogEntry}
    (loaded : s.load = .ok (.list items))
    (readable : items.mapM (ChangelogEntry.fromDict iso) = .ok before) :
    ∃ s', JobSnapshot.recordAll (fun entry s => record (.ok ()) iso entry s) entries s = (.ok (), s') ∧
      s'.allEntries iso = .ok (before ++ entries) := by
  induction entries generalizing s items before with
  | nil => exact ⟨s, rfl, by rw [allEntries_of_list loaded, readable, List.append_nil]⟩
  | cons entry rest ih =>
      rw [List.forall_mem_cons] at native
      obtain ⟨j, encoded⟩ := native.1.encodes iso
      obtain ⟨returned, loaded'⟩ := record_loads loaded encoded
      have back := (ChangelogEntry.returns_iff encoded).mpr native.1
      have readable' := (mapM_append_single_iff readable (ofJson j) entry).mpr back
      obtain ⟨s', given, read⟩ := ih native.2 loaded' readable'
      refine ⟨s', ?_, by rw [read, List.append_assoc, List.singleton_append]⟩
      rw [JobSnapshot.recordAll]
      cases made : s.record (.ok ()) iso entry with
      | mk outcome after =>
          rw [made] at returned given
          cases returned
          exact given

end ChangelogStore

end Cronwatch.Jobs
