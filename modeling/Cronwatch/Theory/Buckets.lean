/-
# Theory.Buckets -- the items of a list by a key of theirs

`pairBuckets l` puts every item into the list of the key it comes with, in order: a `Dict`
with the keys that occur, each with the items that came with it (`get?_pairBuckets`).
`buckets key l` does the same by a key of the items (`mem_keys_buckets`, `get?_buckets`), and
its lists together are the items again (`perm_buckets`).

`sum_countP` counts items by key: over different keys, the counts of the items of each key
add up to the count of the items that have one of them.  `sum_by_key` adds up a value of the
items by key in the same way.
-/
import Cronwatch.Theory.Dict
import Mathlib.Algebra.GroupWithZero.Nat
import Mathlib.Algebra.BigOperators.Group.List.Basic
import Mathlib.Data.List.Induction

namespace Cronwatch.Theory

set_option autoImplicit false

universe u v w x

variable {α : Type u} {κ : Type v} [DecidableEq κ]

theorem Dict.mapEntries_set {ν : Type w} {ω : Type x} (f : κ → ν → ω) (d : Dict κ ν) (k : κ)
    (v : ν) : (d.set k v).mapEntries f = (d.mapEntries f).set k (f k v) := by
  refine Dict.eq_of_entries ?_
  show (Dict.assign k v d.entries).map _ = Dict.assign k (f k v) (d.entries.map _)
  induction d.entries with
  | nil => rfl
  | cons e rest ih =>
      rw [Dict.assign, List.map_cons, Dict.assign]
      by_cases here : e.1 = k
      · rw [if_pos here, if_pos here, List.map_cons]
      · rw [if_neg here, if_neg here, List.map_cons, ih]

/-- A sum over the values takes in the new value for the one that it replaces. -/
theorem Dict.sum_set {ν : Type w} (f : ν → Nat) (d : Dict κ ν) (k : κ) (v : ν) :
    ((d.set k v).entries.map fun e => f e.2).sum + ((d.get? k).map f).getD 0 =
      (d.entries.map fun e => f e.2).sum + f v := by
  show ((Dict.assign k v d.entries).map _).sum + ((d.entries.lookup k).map f).getD 0 = _
  induction d.entries with
  | nil => simp [Dict.assign]
  | cons e rest ih =>
      rw [Dict.assign, Dict.lookup_cons_eq, List.map_cons, List.sum_cons]
      by_cases here : e.1 = k
      · rw [if_pos here, if_pos here.symm, List.map_cons, List.sum_cons, Option.map_some,
          Option.getD_some]
        dsimp only
        omega
      · rw [if_neg here, if_neg (Ne.symm here), List.map_cons, List.sum_cons]
        omega

/-- `d[key].append(item)`. -/
def appendTo (d : Dict κ (List α)) (e : κ × α) : Dict κ (List α) :=
  d.set e.1 ((d.get? e.1).getD [] ++ [e.2])

def pairBuckets (l : List (κ × α)) : Dict κ (List α) := l.foldl appendTo .empty

theorem pairBuckets_append_single (l : List (κ × α)) (e : κ × α) :
    pairBuckets (l ++ [e]) = appendTo (pairBuckets l) e := by
  rw [pairBuckets, List.foldl_append]
  rfl

/-- The bucket of a key is what came with the key. -/
theorem get?_pairBuckets (l : List (κ × α)) (k : κ) :
    ((pairBuckets l).get? k).getD [] = (l.filter fun e => e.1 = k).map Prod.snd := by
  induction l using List.reverseRecOn with
  | nil => rfl
  | append_singleton before e ih =>
      rw [pairBuckets_append_single, appendTo, Dict.get?_set, List.filter_append, List.map_append,
        ← ih]
      by_cases same : k = e.1
      · subst same
        simp
      · have other : ¬ e.1 = k := fun eq => same eq.symm
        simp [same, other]

theorem mem_keys_pairBuckets (l : List (κ × α)) (k : κ) :
    k ∈ (pairBuckets l).keys ↔ ∃ e ∈ l, e.1 = k := by
  induction l using List.reverseRecOn with
  | nil => simp [pairBuckets, Dict.keys, Dict.empty]
  | append_singleton before e ih =>
      rw [pairBuckets_append_single, appendTo, Dict.mem_keys_set, ih]
      simp only [List.mem_append, List.mem_singleton, or_and_right, exists_or, exists_eq_left]
      rw [or_comm, eq_comm]

def addToBucket (key : α → κ) (d : Dict κ (List α)) (a : α) : Dict κ (List α) :=
  d.set (key a) ((d.get? (key a)).getD [] ++ [a])

def buckets (key : α → κ) (l : List α) : Dict κ (List α) := l.foldl (addToBucket key) .empty

section Buckets

variable (key : α → κ)

theorem buckets_eq_pairBuckets (l : List α) :
    buckets key l = pairBuckets (l.map fun a => (key a, a)) := by
  rw [pairBuckets, List.foldl_map]
  rfl

theorem buckets_append_single (l : List α) (a : α) :
    buckets key (l ++ [a]) = addToBucket key (buckets key l) a := by
  rw [buckets, List.foldl_append]
  rfl

/-- Mapping the items first, or the buckets afterwards. -/
theorem mapEntries_buckets {β : Type x} (f : β → α) (l : List β) :
    ((buckets (fun b => key (f b)) l).mapEntries fun _ bs => bs.map f) = buckets key (l.map f) := by
  induction l using List.reverseRecOn with
  | nil => rfl
  | append_singleton before b ih =>
      rw [List.map_append, List.map_singleton, buckets_append_single, buckets_append_single,
        addToBucket, addToBucket, Dict.mapEntries_set, ih, ← ih, Dict.get?_mapEntries]
      cases (buckets (fun b => key (f b)) before).get? (key (f b)) with
      | none => rfl
      | some bs => rw [Option.map_some, Option.getD_some, Option.getD_some, List.map_append,
          List.map_singleton]

/-- The bucket of a key is what has the key. -/
theorem get?_buckets (l : List α) (k : κ) :
    ((buckets key l).get? k).getD [] = l.filter fun a => key a = k := by
  rw [buckets_eq_pairBuckets, get?_pairBuckets, List.filter_map, List.map_map]
  exact List.map_id _

theorem mem_keys_buckets (l : List α) (k : κ) :
    k ∈ (buckets key l).keys ↔ ∃ a ∈ l, key a = k := by
  rw [buckets_eq_pairBuckets, mem_keys_pairBuckets]
  simp

/-- A bucket that is there has an item. -/
theorem bucket_of_mem {l : List α} {e : κ × List α} (member : e ∈ (buckets key l).entries) :
    e.2 = (l.filter fun a => key a = e.1) ∧ ∃ first rest, e.2 = first :: rest := by
  have found := (Dict.mem_entries_iff _ e.1 e.2).mp member
  have items := get?_buckets key l e.1
  rw [found, Option.getD_some] at items
  obtain ⟨a, among, has⟩ := (mem_keys_buckets key l e.1).mp (List.mem_map_of_mem member)
  have inside : a ∈ e.2 := by
    rw [items]
    exact List.mem_filter.mpr ⟨among, decide_eq_true has⟩
  exact ⟨items, List.exists_cons_of_ne_nil (List.ne_nil_of_mem inside)⟩

theorem entries_buckets (l : List α) : (buckets key l).entries =
    (buckets key l).keys.map fun k => (k, l.filter fun a => key a = k) := by
  rw [Dict.keys, List.map_map]
  refine (List.map_id _).symm.trans (List.map_congr_left fun e member => ?_)
  exact Prod.ext rfl (bucket_of_mem key member).1

/-- Different keys take different items. -/
theorem perm_flatMap_filter (l : List α) {ks : List κ} (distinct : ks.Nodup) :
    (ks.flatMap fun k => l.filter fun a => key a = k).Perm (l.filter fun a => key a ∈ ks) := by
  induction ks with
  | nil => simp
  | cons k rest ih =>
      rw [List.nodup_cons] at distinct
      have apart := List.filter_append_perm (fun a => decide (key a = k))
        (l.filter fun a => key a ∈ k :: rest)
      rw [List.filter_filter, List.filter_filter] at apart
      have here : (l.filter fun a => decide (key a = k) && decide (key a ∈ k :: rest)) =
          l.filter fun a => key a = k := by
        apply List.filter_congr
        intro a _
        by_cases same : key a = k <;> simp [same]
      have others : (l.filter fun a => !decide (key a = k) && decide (key a ∈ k :: rest)) =
          l.filter fun a => key a ∈ rest := by
        apply List.filter_congr
        intro a _
        by_cases same : key a = k
        · simp [same, distinct.1]
        · simp [same]
      rw [here, others] at apart
      rw [List.flatMap_cons]
      exact ((ih distinct.2).append_left _).trans apart

/-- Of the items of different keys, those of one key. -/
theorem filter_flatMap (l : List α) {ks : List κ} (distinct : ks.Nodup) (k : κ) :
    ((ks.flatMap fun k => l.filter fun a => key a = k).filter fun a => key a = k) =
      if k ∈ ks then l.filter fun a => key a = k else [] := by
  induction ks with
  | nil => rfl
  | cons first rest ih =>
      rw [List.nodup_cons] at distinct
      rw [List.flatMap_cons, List.filter_append, ih distinct.2, List.filter_filter]
      by_cases here : k = first
      · subst here
        simp [distinct.1]
      · have none_ : (l.filter fun a => decide (key a = k) && decide (key a = first)) = [] := by
          apply List.filter_eq_nil_iff.mpr
          intro a _ both
          simp only [Bool.and_eq_true, decide_eq_true_eq] at both
          exact here (both.1.symm.trans both.2)
        rw [none_, List.nil_append]
        simp [here]

/-- The same where every item has one of the keys. -/
theorem filter_flatMap_of_all {l : List α} {ks : List κ} (distinct : ks.Nodup)
    (all : ∀ a ∈ l, key a ∈ ks) (k : κ) :
    ((ks.flatMap fun k => l.filter fun a => key a = k).filter fun a => key a = k) =
      l.filter fun a => key a = k := by
  rw [filter_flatMap key l distinct k]
  split
  · rfl
  · rename_i unknown
    symm
    apply List.filter_eq_nil_iff.mpr
    intro a member has
    exact unknown (of_decide_eq_true has ▸ all a member)

theorem mem_keys_of_mem {l : List α} {a : α} (member : a ∈ l) : key a ∈ (buckets key l).keys :=
  (mem_keys_buckets key l (key a)).mpr ⟨a, member, rfl⟩

/-- The buckets one after the other: the items of each key. -/
theorem flatMap_buckets (l : List α) : (buckets key l).entries.flatMap Prod.snd =
    (buckets key l).keys.flatMap fun k => l.filter fun a => key a = k := by
  rw [entries_buckets, List.flatMap_map]

/-- **The buckets together** are the items again. -/
theorem perm_buckets (l : List α) : ((buckets key l).entries.flatMap Prod.snd).Perm l := by
  have all : (l.filter fun a => key a ∈ (buckets key l).keys) = l := by
    apply List.filter_eq_self.mpr
    intro a member
    exact decide_eq_true (mem_keys_of_mem key member)
  have parts := perm_flatMap_filter key l (buckets key l).nodup_keys
  rw [all] at parts
  rwa [flatMap_buckets]

/-- **Counting by keys** counts every item with one of the keys once. -/
theorem sum_countP (p : α → Bool) (l : List α) {ks : List κ} (distinct : ks.Nodup) :
    (ks.map fun k => l.countP fun a => p a && decide (key a = k)).sum =
      l.countP fun a => p a && decide (key a ∈ ks) := by
  have counted := (perm_flatMap_filter key l distinct).countP_eq p
  simpa only [List.countP_flatMap, List.countP_filter, Function.comp_def] using counted

/-- **Adding up by keys**: where every item has one of them, the sums of the items of each
key add up to the sum of all. -/
theorem sum_by_key {M : Type w} [AddCommMonoid M] (f : α → M) (l : List α) {ks : List κ}
    (distinct : ks.Nodup) (all : ∀ a ∈ l, key a ∈ ks) :
    (ks.map fun k => ((l.filter fun a => key a = k).map f).sum).sum = (l.map f).sum := by
  have parts := ((perm_flatMap_filter key l distinct).map f).sum_eq
  rw [List.filter_eq_self.mpr fun a member => decide_eq_true (all a member)] at parts
  rw [← parts, List.map_flatMap, List.flatMap_def, List.sum_flatten, List.map_map]
  rfl

end Buckets

end Cronwatch.Theory
