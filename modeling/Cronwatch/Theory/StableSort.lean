/-
# Theory.StableSort -- sorting by a key, upwards or downwards

`sortedBy key reverse l` sorts by the key, and leaves items with one key in the order in
which they stood, in either direction (`filter_sortedBy`).  Nothing else does that: a list
is the sorted one as soon as it is in order and has the same items under each key
(`eq_sortedBy`).

* `flatMap_sortEntries`: sorting the buckets and listing them is sorting the items.
* `filter_prefix`: in a list that falls, the items from a bound upwards stand in front.
* `pairwise_sortedSet`: a sorted set has each element once, upwards.
-/
import Cronwatch.Theory.Buckets
import Mathlib.Data.List.Sort

namespace Cronwatch.Theory

set_option autoImplicit false

universe u v w

variable {α : Type u} {τ : Type v} [LinearOrder τ]

/-- May stand before the other. -/
def Precedes (key : α → τ) (reverse : Bool) (a b : α) : Prop :=
  if reverse then key b ≤ key a else key a ≤ key b

instance (key : α → τ) (reverse : Bool) : DecidableRel (Precedes key reverse) := fun a b =>
  inferInstanceAs (Decidable (if reverse then key b ≤ key a else key a ≤ key b))

/-- `sorted(l, key=key, reverse=reverse)`. -/
def sortedBy (key : α → τ) (reverse : Bool) (l : List α) : List α :=
  l.insertionSort (Precedes key reverse)

section Sorted

variable {key : α → τ} {reverse : Bool}

theorem precedes_of_eq {a b : α} (same : key a = key b) : Precedes key reverse a b := by
  cases reverse
  · exact same.le
  · exact same.ge

theorem Precedes.antisymm {a b : α} (one : Precedes key reverse a b)
    (other : Precedes key reverse b a) : key a = key b := by
  cases reverse
  · exact le_antisymm one other
  · exact le_antisymm other one

instance : Std.Total (Precedes key reverse) := ⟨fun a b => by
  cases reverse
  · exact le_total (key a) (key b)
  · exact le_total (key b) (key a)⟩

instance : IsTrans α (Precedes key reverse) := ⟨fun a b c one other => by
  cases reverse
  · exact le_trans (α := τ) one other
  · exact le_trans (α := τ) other one⟩

theorem perm_sortedBy (l : List α) : (sortedBy key reverse l).Perm l :=
  List.perm_insertionSort _ l

@[simp] theorem mem_sortedBy {l : List α} {a : α} : a ∈ sortedBy key reverse l ↔ a ∈ l :=
  (perm_sortedBy l).mem_iff

theorem pairwise_sortedBy (l : List α) : (sortedBy key reverse l).Pairwise (Precedes key reverse) :=
  List.pairwise_insertionSort _ l

/-- Items of one key are in order as they are. -/
theorem pairwise_filter_key (l : List α) (k : τ) :
    (l.filter fun a => key a = k).Pairwise (Precedes key reverse) := by
  refine List.pairwise_of_forall_mem_list fun a member b member' => precedes_of_eq ?_
  rw [of_decide_eq_true (List.mem_filter.mp member).2,
    of_decide_eq_true (List.mem_filter.mp member').2]

/-- **The sort is stable.** -/
theorem filter_sortedBy (l : List α) (k : τ) :
    ((sortedBy key reverse l).filter fun a => key a = k) = l.filter fun a => key a = k := by
  have kept : (l.filter fun a => key a = k).Sublist (sortedBy key reverse l) :=
    List.sublist_insertionSort (pairwise_filter_key l k) List.filter_sublist
  have inside := kept.filter fun a => decide (key a = k)
  rw [List.filter_filter] at inside
  simp only [Bool.and_self] at inside
  exact (inside.eq_of_length ((perm_sortedBy l).filter _).length_eq.symm).symm

/-- In two lists in order with the same items under each key, the first items have one key. -/
theorem head_key_eq {a b : α} {rest rest' : List α}
    (sorted : (a :: rest).Pairwise (Precedes key reverse))
    (sorted' : (b :: rest').Pairwise (Precedes key reverse))
    (same : ∀ k, ((a :: rest).filter fun c => key c = k) = (b :: rest').filter fun c => key c = k) :
    key a = key b := by
  have mem_iff : ∀ c, c ∈ a :: rest ↔ c ∈ b :: rest' := by
    intro c
    have here : ∀ l : List α, c ∈ l ↔ c ∈ l.filter fun d => key d = key c := by simp
    rw [here, same, ← here]
  have before : ∀ {c d : α} {tail : List α}, (c :: tail).Pairwise (Precedes key reverse) →
      d ∈ c :: tail → Precedes key reverse c d := by
    intro c d tail sorted member
    rcases List.mem_cons.mp member with rfl | later
    · exact precedes_of_eq rfl
    · exact (List.pairwise_cons.mp sorted).1 d later
  exact (before sorted ((mem_iff b).mpr List.mem_cons_self)).antisymm
    (before sorted' ((mem_iff a).mp List.mem_cons_self))

/-- **A list in order** is determined by its items under each key. -/
theorem eq_of_filter_eq {l l' : List α} (sorted : l.Pairwise (Precedes key reverse))
    (sorted' : l'.Pairwise (Precedes key reverse))
    (same : ∀ k, (l.filter fun a => key a = k) = l'.filter fun a => key a = k) : l = l' := by
  induction l generalizing l' with
  | nil =>
      refine (List.eq_nil_iff_forall_not_mem.mpr fun a member => ?_).symm
      have here := same (key a)
      have among : a ∈ l'.filter fun b => key b = key a := by simp [member]
      rw [← here] at among
      cases among
  | cons a rest ih =>
      cases l' with
      | nil =>
          have here := same (key a)
          simp at here
      | cons b rest' =>
          have keys := head_key_eq sorted sorted' same
          have first := same (key a)
          rw [List.filter_cons_of_pos (by simp), List.filter_cons_of_pos (by simp [keys])] at first
          obtain ⟨rfl, -⟩ := List.cons.inj first
          refine congrArg _ (ih (List.pairwise_cons.mp sorted).2 (List.pairwise_cons.mp sorted').2
            fun k => ?_)
          have one := same k
          rw [List.filter_cons, List.filter_cons] at one
          split at one
          · exact (List.cons.inj one).2
          · exact one

theorem eq_sortedBy {l sorted : List α} (inOrder : sorted.Pairwise (Precedes key reverse))
    (same : ∀ k, (sorted.filter fun a => key a = k) = l.filter fun a => key a = k) :
    sorted = sortedBy key reverse l :=
  eq_of_filter_eq inOrder (pairwise_sortedBy l) fun k => (same k).trans (filter_sortedBy l k).symm

/-- From a bound upwards: the front of a list that falls. -/
theorem filter_prefix {l : List α} (falls : l.Pairwise (Precedes key true)) (bound : τ) :
    (l.filter fun a => bound ≤ key a) <+: l := by
  induction l with
  | nil => exact List.prefix_rfl
  | cons a rest ih =>
      rw [List.pairwise_cons] at falls
      by_cases reached : bound ≤ key a
      · rw [List.filter_cons_of_pos (by simpa using reached)]
        exact (List.prefix_cons_inj a).mpr (ih falls.2)
      · have none_ : ∀ b ∈ a :: rest, ¬ (decide (bound ≤ key b) = true) := by
          intro b member
          rw [decide_eq_true_eq]
          rcases List.mem_cons.mp member with rfl | later
          · exact reached
          · exact fun up => reached (up.trans (falls.1 b later))
        rw [List.filter_eq_nil_iff.mpr none_]
        exact List.nil_prefix

end Sorted

/-! ## Sorted sets -/

/-- `sorted(set(l))`. -/
def sortedSet (l : List τ) : List τ := sortedBy id false (Enumeration.ofList l).elements

@[simp] theorem mem_sortedSet {l : List τ} {k : τ} : k ∈ sortedSet l ↔ k ∈ l := by
  rw [sortedSet, mem_sortedBy, Enumeration.mem_ofList]

/-- Each element once, upwards. -/
theorem pairwise_sortedSet (l : List τ) : (sortedSet l).Pairwise (· < ·) := by
  have sorted : (sortedSet l).Pairwise (Precedes id false) := pairwise_sortedBy _
  have distinct : (sortedSet l).Nodup :=
    (perm_sortedBy (Enumeration.ofList l).elements).nodup_iff.mpr (Enumeration.ofList l).nodup
  exact sorted.imp₂ (fun _ _ le ne => lt_of_le_of_ne le ne) distinct

theorem nodup_sortedSet (l : List τ) : (sortedSet l).Nodup :=
  (pairwise_sortedSet l).imp fun lt => ne_of_lt lt

/-- An ascending list is the sorted set of what it has. -/
theorem eq_sortedSet {l sorted : List τ} (ascending : sorted.Pairwise (· < ·))
    (same : ∀ k, k ∈ sorted ↔ k ∈ l) : sorted = sortedSet l := by
  have distinct : sorted.Nodup := ascending.imp fun lt => ne_of_lt lt
  have perm : sorted.Perm (sortedSet l) :=
    (List.perm_ext_iff_of_nodup distinct (nodup_sortedSet l)).mpr fun k => by rw [same, mem_sortedSet]
  refine List.Perm.eq_of_pairwise ?_ ascending (pairwise_sortedSet l) perm
  intro a b _ _ before after
  exact absurd before (lt_asymm after)

/-! ## Sorted entries -/

section Entries

variable {ν : Type w}

/-- `dict(sorted(d.items(), reverse=reverse))`: the keys differ, so that no values are
compared. -/
def sortEntries (reverse : Bool) (d : Dict τ ν) : Dict τ ν :=
  ⟨sortedBy Prod.fst reverse d.entries,
    (((perm_sortedBy d.entries).map Prod.fst).nodup_iff).mpr d.keysNodup⟩

theorem get?_sortEntries (reverse : Bool) (d : Dict τ ν) (k : τ) :
    (sortEntries reverse d).get? k = d.get? k := by
  rw [Option.ext_iff]
  intro v
  rw [← Dict.mem_entries_iff, ← Dict.mem_entries_iff]
  exact mem_sortedBy

theorem keys_sortEntries (d : Dict τ ν) : (sortEntries false d).keys = sortedSet d.keys := by
  apply eq_sortedSet
  · have inOrder : (sortEntries false d).entries.Pairwise (Precedes Prod.fst false) :=
      pairwise_sortedBy d.entries
    have sorted : ((sortEntries false d).keys).Pairwise (· ≤ ·) := List.pairwise_map.mpr inOrder
    exact sorted.imp₂ (fun _ _ le ne => lt_of_le_of_ne le ne) (sortEntries false d).nodup_keys
  · intro k
    exact ((perm_sortedBy d.entries).map Prod.fst).mem_iff

/-- The items of the keys in order, each key with its own, are in order. -/
theorem pairwise_flatMap {key : α → τ} {reverse : Bool} (l : List α) {ks : List τ}
    (sorted : ks.Pairwise (Precedes id reverse)) :
    (ks.flatMap fun k => l.filter fun a => key a = k).Pairwise (Precedes key reverse) := by
  rw [List.pairwise_flatMap]
  refine ⟨fun k _ => pairwise_filter_key l k, ?_⟩
  apply sorted.imp
  intro k k' before a member b member'
  have one := of_decide_eq_true (List.mem_filter.mp member).2
  have other := of_decide_eq_true (List.mem_filter.mp member').2
  subst one
  subst other
  exact before

/-- **Listing the sorted buckets** is sorting the items. -/
theorem flatMap_sortEntries (key : α → τ) (reverse : Bool) (l : List α) :
    (sortEntries reverse (buckets key l)).entries.flatMap Prod.snd = sortedBy key reverse l := by
  let entries := (sortEntries reverse (buckets key l)).entries
  have listed : entries.flatMap Prod.snd =
      (entries.map Prod.fst).flatMap fun k => l.filter fun a => key a = k := by
    rw [List.flatMap_map]
    apply List.flatMap_congr
    intro e member
    exact (bucket_of_mem key (mem_sortedBy.mp member)).1
  have inOrder : (entries.map Prod.fst).Pairwise (Precedes id reverse) := by
    rw [List.pairwise_map]
    exact pairwise_sortedBy (buckets key l).entries
  have distinct : (entries.map Prod.fst).Nodup := (sortEntries reverse (buckets key l)).keysNodup
  show entries.flatMap Prod.snd = _
  rw [listed]
  apply eq_sortedBy (pairwise_flatMap l inOrder)
  intro k
  refine filter_flatMap_of_all key distinct (fun a member => ?_) k
  exact (((perm_sortedBy (buckets key l).entries).map Prod.fst).mem_iff).mpr
    (mem_keys_of_mem key member)

end Entries

end Cronwatch.Theory
