/-
# Theory.Highest -- the highest item of a list that a bound reaches

Every item has a key.  A bound reaches the items whose key is at most the bound; the
highest of them is the one with the largest key, and of several with that key the one
listed last (`IsHighest`).  It is what a stable sort by the key followed by a scan for the
last item reached comes to (`lastWith_insertionSort`).

* `IsHighest.exists_key_le`: the key of the highest item grows with the bound.
* `highest_perm`: with distinct keys the order of the list has no part in it.
-/
import Cronwatch.Theory.Splits
import Mathlib.Data.List.Sort

namespace Cronwatch.Theory

set_option autoImplicit false

universe u v w

variable {α : Type u} {τ : Type v} [LinearOrder τ]

/-- The item has the largest key within the bound, and stands behind the others with that
key. -/
def IsHighest (key : α → τ) (bound : τ) (l : List α) (a : α) : Prop :=
  ∃ before after, l = before ++ a :: after ∧ key a ≤ bound ∧
    (∀ b ∈ before, key b ≤ bound → key b ≤ key a) ∧ ∀ b ∈ after, key b ≤ bound → key b < key a

/-- The better of an item and the highest one of the items behind it. -/
def higher (key : α → τ) (bound : τ) (a : α) : Option α → Option α
  | none => if key a ≤ bound then some a else none
  | some b => if key a ≤ bound ∧ key b < key a then some a else some b

def highest (key : α → τ) (bound : τ) (l : List α) : Option α :=
  l.foldr (higher key bound) none

section Highest

variable {key : α → τ} {bound : τ}

@[simp] theorem highest_nil : highest key bound [] = none := rfl

@[simp] theorem highest_cons (a : α) (rest : List α) :
    highest key bound (a :: rest) = higher key bound a (highest key bound rest) := rfl

theorem highest_eq_none_iff (l : List α) :
    highest key bound l = none ↔ ∀ a ∈ l, bound < key a := by
  induction l with
  | nil => simp
  | cons a rest ih =>
      rw [highest_cons, List.forall_mem_cons, ← ih]
      cases highest key bound rest with
      | none => simp [higher]
      | some b =>
          rw [higher]
          split <;> simp

/-- **The highest item** is one, with the items around it. -/
theorem highest_isHighest {l : List α} {a : α} (found : highest key bound l = some a) :
    IsHighest key bound l a := by
  induction l generalizing a with
  | nil => cases found
  | cons first rest ih =>
      rw [highest_cons] at found
      cases later : highest key bound rest with
      | none =>
          rw [later, higher] at found
          split at found
          · rename_i reached
            cases found
            have unreached := (highest_eq_none_iff rest).mp later
            refine ⟨[], rest, rfl, reached, by simp, fun b member within => ?_⟩
            exact absurd within (not_le.mpr (unreached b member))
          · cases found
      | some b =>
          obtain ⟨before, after, split_, reached, front, back⟩ := ih later
          rw [later, higher] at found
          split at found
          · rename_i better
            cases found
            refine ⟨[], rest, rfl, better.1, by simp, fun c member within => ?_⟩
            have upTo : key c ≤ key b := by
              rw [split_, List.mem_append, List.mem_cons] at member
              rcases member with earlier | rfl | behind
              · exact front c earlier within
              · exact le_rfl
              · exact (back c behind within).le
            exact upTo.trans_lt better.2
          · rename_i worse
            cases found
            refine ⟨first :: before, after, by rw [split_, List.cons_append], reached, ?_, back⟩
            rw [List.forall_mem_cons]
            refine ⟨fun within => ?_, front⟩
            exact not_lt.mp fun better => worse ⟨within, better⟩

theorem IsHighest.mem {l : List α} {a : α} (is : IsHighest key bound l a) : a ∈ l := by
  obtain ⟨before, after, rfl, -⟩ := is
  simp

theorem IsHighest.reached {l : List α} {a : α} (is : IsHighest key bound l a) :
    key a ≤ bound := by
  obtain ⟨-, -, -, reached, -⟩ := is
  exact reached

theorem IsHighest.le {l : List α} {a b : α} (is : IsHighest key bound l a) (member : b ∈ l)
    (within : key b ≤ bound) : key b ≤ key a := by
  obtain ⟨before, after, rfl, -, front, back⟩ := is
  rw [List.mem_append, List.mem_cons] at member
  rcases member with earlier | rfl | behind
  · exact front b earlier within
  · exact le_rfl
  · exact (back b behind within).le

/-- The key reached **grows with the bound**. -/
theorem IsHighest.exists_key_le {bound' : τ} {l : List α} {a : α} (is : IsHighest key bound l a)
    (le : bound ≤ bound') : ∃ b, IsHighest key bound' l b ∧ key a ≤ key b := by
  have within := is.reached.trans le
  cases found : highest key bound' l with
  | none =>
      have unreached := (highest_eq_none_iff l).mp found a is.mem
      exact absurd within (not_le.mpr unreached)
  | some b =>
      have is' := highest_isHighest found
      exact ⟨b, is', is'.le is.mem within⟩

/-- **With distinct keys** the highest item is the same in any order. -/
theorem highest_perm {l l' : List α} (perm : l.Perm l') (distinct : (l.map key).Nodup) :
    highest key bound l = highest key bound l' := by
  cases found : highest key bound l with
  | none =>
      have unreached := (highest_eq_none_iff l).mp found
      exact ((highest_eq_none_iff l').mpr fun a member =>
        unreached a (perm.mem_iff.mpr member)).symm
  | some a =>
      have is := highest_isHighest found
      cases found' : highest key bound l' with
      | none =>
          have unreached := (highest_eq_none_iff l').mp found' a (perm.mem_iff.mp is.mem)
          exact absurd is.reached (not_le.mpr unreached)
      | some b =>
          have is' := highest_isHighest found'
          have among := perm.mem_iff.mpr is'.mem
          have same : key a = key b :=
            le_antisymm (is'.le (perm.mem_iff.mp is.mem) is.reached) (is.le among is'.reached)
          rw [List.inj_on_of_nodup_map distinct is.mem among same]

/-! ## Sorting and scanning -/

theorem lastWith_cons (p : α → Bool) (a : α) (rest : List α) :
    lastWith p (a :: rest) = (lastWith p rest).or (if p a then some a else none) := by
  rw [lastWith, lastWith, List.filter_cons]
  split
  · rw [List.getLast?_cons]
    cases (rest.filter p).getLast? <;> rfl
  · rw [Option.or_none]

/-- One item more, put at its place in a sorted list. -/
theorem lastWith_orderedInsert (a : α) {s : List α} (sorted : s.Pairwise fun b c => key b ≤ key c) :
    lastWith (fun b => key b ≤ bound) (s.orderedInsert (fun b c => key b ≤ key c) a) =
      higher key bound a (lastWith (fun b => key b ≤ bound) s) := by
  induction s with
  | nil => simp [higher, lastWith]
  | cons b rest ih =>
      rw [List.pairwise_cons] at sorted
      rw [List.orderedInsert_cons]
      split
      · rename_i before
        rw [lastWith_cons]
        cases found : lastWith (fun b => decide (key b ≤ bound)) (b :: rest) with
        | none => simp [higher]
        | some c =>
            have member : c ∈ b :: rest := List.mem_of_mem_filter (List.mem_of_getLast? found)
            have upTo : key a ≤ key c := by
              rcases List.mem_cons.mp member with rfl | later
              · exact before
              · exact before.trans (sorted.1 c later)
            have kept : higher key bound a (some c) = some c :=
              if_neg fun better => absurd better.2 (not_lt.mpr upTo)
            rw [kept, Option.some_or]
      · rename_i after
        have above : key b < key a := not_le.mp after
        rw [lastWith_cons, lastWith_cons, ih sorted.2]
        cases lastWith (fun b => decide (key b ≤ bound)) rest with
        | none =>
            by_cases reached : key a ≤ bound
            · have within : key b ≤ bound := above.le.trans reached
              simp [higher, reached, within, above]
            · by_cases within : key b ≤ bound
              · simp [higher, reached, within]
              · simp [higher, reached, within]
        | some c =>
            rw [higher, Option.some_or, higher]
            split <;> rfl

/-- **A stable sort and a scan** find the highest item. -/
theorem lastWith_insertionSort (l : List α) :
    lastWith (fun a => key a ≤ bound) (l.insertionSort fun a b => key a ≤ key b) =
      highest key bound l := by
  induction l with
  | nil => rfl
  | cons a rest ih =>
      have total : Std.Total fun a b : α => key a ≤ key b := ⟨fun a b => le_total _ _⟩
      have transitive : IsTrans α fun a b => key a ≤ key b := ⟨fun _ _ _ => le_trans⟩
      have sorted := List.pairwise_insertionSort (fun a b : α => key a ≤ key b) rest
      rw [List.insertionSort_cons, lastWith_orderedInsert a sorted, ih, highest_cons]

end Highest

/-- A loop that keeps the value of every item it meets with the property ends with the last
one. -/
theorem foldl_keep {β : Type w} (p : α → Bool) (value : α → β) (l : List α) (default_ : β) :
    l.foldl (fun current a => if p a then value a else current) default_ =
      (lastWith p l).elim default_ value := by
  induction l using List.reverseRecOn with
  | nil => rfl
  | append_singleton before last ih =>
      rw [List.foldl_append, List.foldl_cons, List.foldl_nil, lastWith_append_single, ih]
      split <;> rfl

end Cronwatch.Theory
