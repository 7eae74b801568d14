/-
# Theory.FirstOccurrences -- each item of a list once, where it comes first

`FirstOccurrences l result` says that `result` has the items of `l`, each once, in the order
of their first occurrences in `l`.  There is only one such list (`unique`).

* `keepNew_loop`: a loop makes it that appends every item whose identity is not in a set of
  those it has seen.
* `keys_pairBuckets`: the keys of buckets are in this order.
-/
import Mathlib.Data.Finset.Insert
import Cronwatch.Theory.Buckets

namespace Cronwatch.Theory

set_option autoImplicit false

universe u v

variable {α : Type u} [DecidableEq α]

structure FirstOccurrences (l result : List α) : Prop where
  mem : ∀ a, a ∈ result ↔ a ∈ l
  inOrder : result.Pairwise fun a b => l.idxOf a < l.idxOf b

namespace FirstOccurrences

variable {l result : List α}

theorem nil : FirstOccurrences ([] : List α) [] := ⟨fun _ => Iff.rfl, .nil⟩

theorem nodup (first : FirstOccurrences l result) : result.Nodup := by
  apply first.inOrder.imp
  intro a b before same
  subst same
  exact absurd before (Nat.lt_irrefl _)

/-- What comes later moves no first occurrence. -/
theorem inOrder_append (first : FirstOccurrences l result) (more : List α) :
    result.Pairwise fun a b => (l ++ more).idxOf a < (l ++ more).idxOf b := by
  apply first.inOrder.imp_of_mem
  intro a b member member' before
  rw [List.idxOf_append_of_mem ((first.mem a).mp member),
    List.idxOf_append_of_mem ((first.mem b).mp member')]
  exact before

/-- An item that has occurred before. -/
theorem append_of_mem (first : FirstOccurrences l result) {a : α} (known : a ∈ l) :
    FirstOccurrences (l ++ [a]) result := by
  refine ⟨fun b => ?_, first.inOrder_append [a]⟩
  rw [first.mem, List.mem_append, List.mem_singleton]
  constructor
  · exact .inl
  · rintro (before | rfl)
    · exact before
    · exact known

/-- An item that occurs for the first time. -/
theorem append_of_not_mem (first : FirstOccurrences l result) {a : α} (new : a ∉ l) :
    FirstOccurrences (l ++ [a]) (result ++ [a]) := by
  refine ⟨fun b => ?_, List.pairwise_append.mpr ⟨first.inOrder_append [a],
    List.pairwise_singleton _ a, fun b member c last => ?_⟩⟩
  · rw [List.mem_append, List.mem_append, first.mem]
  · rw [List.mem_singleton.mp last, List.idxOf_append_of_mem ((first.mem b).mp member),
      List.idxOf_append_of_notMem new]
    have within := List.idxOf_lt_length_of_mem ((first.mem b).mp member)
    omega

/-- **There is only one such list.** -/
theorem unique {result' : List α} (first : FirstOccurrences l result)
    (first' : FirstOccurrences l result') : result = result' := by
  have perm : result.Perm result' :=
    (List.perm_ext_iff_of_nodup first.nodup first'.nodup).mpr fun a =>
      (first.mem a).trans (first'.mem a).symm
  refine List.Perm.eq_of_pairwise ?_ first.inOrder first'.inOrder perm
  intro a b _ _ before after
  exact absurd before (Nat.lt_asymm after)

/-- Items that are all different are in the order of their occurrences. -/
theorem self (distinct : l.Nodup) : FirstOccurrences l l := by
  refine ⟨fun _ => Iff.rfl, List.pairwise_iff_getElem.mpr ?_⟩
  intro i j inside inside' before
  rw [distinct.idxOf_getElem i inside, distinct.idxOf_getElem j inside']
  exact before

end FirstOccurrences

/-! ## The loop with a set of what it has seen -/

section Loop

variable {ι : Type v} [DecidableEq ι] (identity : α → ι)

omit [DecidableEq α] in
/-- `if identity(a) not in seen: seen.add(identity(a)); result.append(a)`. -/
def keepNew (acc : Finset ι × List α) (a : α) : Finset ι × List α :=
  if identity a ∈ acc.1 then acc else (insert (identity a) acc.1, acc.2 ++ [a])

variable {identity}

/-- What the loop has seen, and what it has kept. -/
structure Kept (identity : α → ι) (l : List α) (acc : Finset ι × List α) : Prop where
  seen : ∀ i, i ∈ acc.1 ↔ ∃ a ∈ l, identity a = i
  first : FirstOccurrences l acc.2

/-- **One turn** of the loop. -/
theorem Kept.step (injective : Function.Injective identity) {l : List α}
    {acc : Finset ι × List α} (kept : Kept identity l acc) (a : α) :
    Kept identity (l ++ [a]) (keepNew identity acc a) := by
  have seen_iff : identity a ∈ acc.1 ↔ a ∈ l := by
    rw [kept.seen]
    constructor
    · rintro ⟨b, member, same⟩
      exact injective same ▸ member
    · exact fun member => ⟨a, member, rfl⟩
  rw [keepNew]
  by_cases known : a ∈ l
  · rw [if_pos (seen_iff.mpr known)]
    refine ⟨fun i => ?_, kept.first.append_of_mem known⟩
    rw [kept.seen]
    simp only [List.mem_append, List.mem_singleton]
    constructor
    · rintro ⟨b, member, same⟩
      exact ⟨b, .inl member, same⟩
    · rintro ⟨b, member | rfl, same⟩
      · exact ⟨b, member, same⟩
      · exact ⟨b, known, same⟩
  · rw [if_neg (known ∘ seen_iff.mp)]
    refine ⟨fun i => ?_, kept.first.append_of_not_mem known⟩
    rw [Finset.mem_insert, kept.seen, or_comm, eq_comm]
    simp only [List.mem_append, List.mem_singleton, or_and_right, exists_or, exists_eq_left]

/-- **The loop keeps** the first occurrences. -/
theorem keepNew_loop (injective : Function.Injective identity) (l : List α) :
    Kept identity l (l.foldl (keepNew identity) (∅, [])) := by
  induction l using List.reverseRecOn with
  | nil => exact ⟨fun i => by simp, .nil⟩
  | append_singleton before a ih =>
      rw [List.foldl_append]
      exact ih.step injective a

end Loop

/-! ## The keys of buckets -/

section Keys

variable {κ : Type v} [DecidableEq κ]

omit [DecidableEq α] in
/-- The keys are in the order in which they come first. -/
theorem keys_pairBuckets (l : List (κ × α)) :
    FirstOccurrences (l.map Prod.fst) (pairBuckets l).keys := by
  induction l using List.reverseRecOn with
  | nil => exact .nil
  | append_singleton before e ih =>
      rw [List.map_append, pairBuckets_append_single, appendTo]
      by_cases known : e.1 ∈ before.map Prod.fst
      · rw [Dict.keys_set_of_mem _ ((ih.mem e.1).mpr known)]
        exact ih.append_of_mem known
      · rw [Dict.keys_set_of_not_mem _ (known ∘ (ih.mem e.1).mp)]
        exact ih.append_of_not_mem known

omit [DecidableEq α] in
theorem keys_buckets (key : α → κ) (l : List α) :
    FirstOccurrences (l.map key) (buckets key l).keys := by
  have keys := keys_pairBuckets (l.map fun a => (key a, a))
  rw [List.map_map] at keys
  rw [buckets_eq_pairBuckets]
  exact keys

end Keys

end Cronwatch.Theory
