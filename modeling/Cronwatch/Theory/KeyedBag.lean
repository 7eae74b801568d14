/-
# Theory.KeyedBag -- a bag in which every key is at most once

Items with a key and a value are put into a bag and taken out of it.  `latest` is what was
given last for every key, whether it is still in the bag or not.  `Once` says that the bag
holds at most one item of a key, with that value.

Taking items out keeps this (`Once.of_le`); putting items in keeps it exactly where their
keys are new (`once_giveAll_iff`).
-/
import Mathlib.Data.Multiset.AddSub
import Mathlib.Data.Multiset.MapFold
import Mathlib.Data.Multiset.UnionInter
import Mathlib.Data.Multiset.ZeroCons
import Mathlib.Logic.Function.Basic

namespace Cronwatch.Theory.KeyedBag

set_option autoImplicit false

universe u v w

variable {α : Type u} {κ : Type v} {ν : Type w} [DecidableEq κ] (key : α → κ) (value : α → ν)

/-- One item more is given. -/
def give (latest : κ → Option ν) (a : α) : κ → Option ν :=
  Function.update latest (key a) (some (value a))

structure Once (bag : Multiset α) (latest : κ → Option ν) : Prop where
  nodup : (bag.map key).Nodup
  current : ∀ a ∈ bag, latest (key a) = some (value a)

variable {key value} {bag kept : Multiset α} {latest : κ → Option ν}

omit [DecidableEq κ] in
theorem once_zero (latest : κ → Option ν) : Once key value 0 latest where
  nodup := Multiset.nodup_zero
  current := fun _ impossible => absurd impossible (Multiset.notMem_zero _)

omit [DecidableEq κ] in
theorem Once.of_le (once : Once key value bag latest) (le : kept ≤ bag) :
    Once key value kept latest where
  nodup := Multiset.nodup_of_le (Multiset.map_le_map le) once.nodup
  current := fun a member => once.current a (Multiset.mem_of_le le member)

theorem Once.give (once : Once key value bag latest) {a : α} (new : key a ∉ bag.map key) :
    Once key value (a ::ₘ bag) (give key value latest a) where
  nodup := by
    rw [Multiset.map_cons, Multiset.nodup_cons]
    exact ⟨new, once.nodup⟩
  current := by
    intro b member
    rcases Multiset.mem_cons.mp member with rfl | held
    · exact Function.update_self ..
    · have other : key b ≠ key a := by
        intro same
        exact new (same ▸ Multiset.mem_map_of_mem key held)
      rw [KeyedBag.give, Function.update_of_ne other]
      exact once.current b held

theorem Once.giveAll {items : List α} (distinct : (items.map key).Nodup)
    (once : Once key value bag latest) (new : ∀ a ∈ items, key a ∉ bag.map key) :
    Once key value (↑items + bag) (items.foldl (KeyedBag.give key value) latest) := by
  induction items generalizing bag latest with
  | nil =>
      rw [Multiset.coe_nil, Multiset.zero_add]
      exact once
  | cons a rest ih =>
      rw [List.map_cons, List.nodup_cons] at distinct
      have first := once.give (new a List.mem_cons_self)
      have others : ∀ b ∈ rest, key b ∉ (a ::ₘ bag).map key := by
        intro b member
        rw [Multiset.map_cons, Multiset.mem_cons, not_or]
        refine ⟨fun same => distinct.1 (same ▸ List.mem_map_of_mem member), ?_⟩
        exact new b (List.mem_cons_of_mem a member)
      have whole : (↑(a :: rest) + bag : Multiset α) = ↑rest + a ::ₘ bag := by
        rw [← Multiset.cons_coe, Multiset.cons_add, Multiset.add_cons]
      rw [whole, List.foldl_cons]
      exact ih distinct.2 first others

/-- **Items with distinct keys are put in**: they are the only ones exactly where no item
in the bag has one of their keys. -/
theorem once_giveAll_iff (once : Once key value bag latest) {items : List α}
    (distinct : (items.map key).Nodup) :
    Once key value (↑items + bag) (items.foldl (give key value) latest) ↔
      ∀ a ∈ items, key a ∉ bag.map key := by
  refine ⟨fun later a member held => ?_, once.giveAll distinct⟩
  have nodup := later.nodup
  rw [Multiset.map_add, Multiset.nodup_add] at nodup
  have here : key a ∈ Multiset.map key ↑items := Multiset.mem_map_of_mem key member
  exact Multiset.disjoint_left.mp nodup.2.2 here held

end Cronwatch.Theory.KeyedBag
