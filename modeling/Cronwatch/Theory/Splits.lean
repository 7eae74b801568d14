/-
# Theory.Splits -- the items of a list, each with what stands before it

`P before a` for every item `a` of a list and the items `before` it, read off the splits
of the list, one item more at a time; `collect`, a `filterMap` whose function sees the
items before as well; `lastWith`, the last item with a property; and `inForce`, what one item has
started and none after it has ended.
-/
import Mathlib.Data.List.Induction

namespace Cronwatch.Theory

set_option autoImplicit false

universe u v

variable {α : Type u} {β : Type v}

/-- The items of a list and of what stands before them, with one item more. -/
theorem forall_splits_append_single {P : List α → α → Prop} (l : List α) (last : α) :
    (∀ before a after, l ++ [last] = before ++ a :: after → P before a) ↔
      (∀ before a after, l = before ++ a :: after → P before a) ∧ P l last := by
  constructor
  · intro all
    refine ⟨fun before a after split => ?_, all l last [] rfl⟩
    exact all before a (after ++ [last]) (by rw [split, List.append_assoc, List.cons_append])
  · rintro ⟨front, here⟩ before a after split
    rcases after.eq_nil_or_concat with rfl | ⟨after, a', rfl⟩
    · obtain ⟨rfl, ⟨⟩⟩ := List.append_inj' split rfl
      exact here
    · have regrouped : l ++ [last] = (before ++ a :: after) ++ [a'] := by
        rw [split, List.concat_eq_append, List.append_assoc, List.cons_append]
      exact front before a after (List.append_inj' regrouped rfl).1

theorem forall_splits_nil {P : List α → α → Prop} :
    ∀ before a after, [] = before ++ a :: after → P before a := by
  intro before a after split
  simp at split

/-- ... and with one item more in front. -/
theorem forall_splits_cons {P : List α → α → Prop} {first : α} {l : List α} (here : P [] first)
    (rest : ∀ before a after, l = before ++ a :: after → P (first :: before) a) :
    ∀ before a after, first :: l = before ++ a :: after → P before a := by
  intro before a after split
  cases before with
  | nil =>
      obtain ⟨rfl, -⟩ := List.cons.inj split
      exact here
  | cons b before =>
      obtain ⟨rfl, tail⟩ := List.cons.inj split
      exact rest before a after tail

/-- The items of a list by their positions. -/
theorem forall_splits_iff_take {P : List α → α → Prop} (l : List α) :
    (∀ before a after, l = before ++ a :: after → P before a) ↔
      ∀ i : Fin l.length, P (l.take i) l[i] := by
  constructor
  · intro all i
    refine all _ _ (l.drop (i + 1)) ?_
    exact (List.take_append_drop i l).symm.trans (congrArg _ (List.drop_eq_getElem_cons i.isLt))
  · rintro each before a after rfl
    simpa using each ⟨before.length, by simp⟩

/-- What `f` makes of the items that it takes, each with the items before it. -/
def collect (f : List α → α → Option β) : List α → List α → List β
  | _, [] => []
  | before, a :: rest => (f before a).toList ++ collect f (before ++ [a]) rest

theorem collect_append (f : List α → α → Option β) (before l l' : List α) :
    collect f before (l ++ l') = collect f before l ++ collect f (before ++ l) l' := by
  induction l generalizing before with
  | nil => simp [collect]
  | cons a rest ih =>
      rw [List.cons_append, collect, collect, ih, List.append_assoc, List.append_assoc,
        List.singleton_append]

theorem collect_append_single (f : List α → α → Option β) (before l : List α) (last : α) :
    collect f before (l ++ [last]) = collect f before l ++ (f (before ++ l) last).toList := by
  rw [collect_append, collect, collect, List.append_nil]

/-- The last item with the property. -/
def lastWith (p : α → Bool) (l : List α) : Option α := (l.filter p).getLast?

theorem lastWith_append_single (p : α → Bool) (l : List α) (last : α) :
    lastWith p (l ++ [last]) = if p last then some last else lastWith p l := by
  rw [lastWith, List.filter_append, List.filter_cons]
  split
  · rw [List.filter_nil, List.getLast?_concat]
  · rw [List.filter_nil, List.append_nil, lastWith]

theorem lastWith_map (p : β → Bool) (f : α → β) (l : List α) :
    lastWith p (l.map f) = (lastWith (p ∘ f) l).map f := by
  rw [lastWith, List.filter_map, List.getLast?_map, lastWith]

theorem lastWith_eq_none_iff (p : α → Bool) (l : List α) :
    lastWith p l = none ↔ ∀ a ∈ l, ¬ p a := by
  rw [lastWith, List.getLast?_eq_none_iff, List.filter_eq_nil_iff]

theorem lastWith_isSome_iff (p : α → Bool) (l : List α) :
    (lastWith p l).isSome ↔ ∃ a ∈ l, p a := by
  rw [Option.isSome_iff_ne_none, ne_eq, lastWith_eq_none_iff]
  simp only [not_forall, not_not, exists_prop]

/-- The first item of a list with some property. -/
theorem exists_first {p : α → Prop} {l : List α} (some_ : ∃ a ∈ l, p a) :
    ∃ before a after, l = before ++ a :: after ∧ p a ∧ ∀ b ∈ before, ¬ p b := by
  induction l with
  | nil =>
      obtain ⟨a, member, -⟩ := some_
      cases member
  | cons first rest ih =>
      by_cases here : p first
      · exact ⟨[], first, rest, rfl, here, by simp⟩
      · obtain ⟨a, member, holds⟩ := some_
        rcases List.mem_cons.mp member with rfl | later
        · exact absurd holds here
        · obtain ⟨before, a', after, rfl, holds', none_⟩ := ih ⟨a, later, holds⟩
          refine ⟨first :: before, a', after, rfl, holds', fun b among => ?_⟩
          rcases List.mem_cons.mp among with rfl | among
          · exact here
          · exact none_ b among

/-! ## What is in force -/

section InForce

variable (starts : α → Option β) (ends : β → α → Bool)

/-- What the items have started, and none after that has ended; a start replaces what was in
force. -/
def inForce (l : List α) : Option β :=
  l.foldl (fun held a => (starts a).or (held.filter fun b => !ends b a)) none

theorem inForce_append_single (l : List α) (last : α) :
    inForce starts ends (l ++ [last]) =
      (starts last).or ((inForce starts ends l).filter fun b => !ends b last) := by
  rw [inForce, List.foldl_append]
  rfl

variable {starts ends}

theorem inForce_eq_some_iff (l : List α) (b : β) :
    inForce starts ends l = some b ↔ ∃ before a after, l = before ++ a :: after ∧
      starts a = some b ∧ ∀ a' ∈ after, starts a' = none ∧ ends b a' = false := by
  induction l using List.reverseRecOn with
  | nil => simp [inForce]
  | append_singleton l last ih =>
      rw [inForce_append_single]
      constructor
      · intro held
        cases started : starts last with
        | some b' =>
            rw [started, Option.some_or] at held
            cases held
            exact ⟨l, last, [], rfl, started, by simp⟩
        | none =>
            rw [started, Option.none_or, Option.filter_eq_some_iff] at held
            obtain ⟨before, a, after, rfl, starts_, kept⟩ := ih.mp held.1
            refine ⟨before, a, after ++ [last], by simp, starts_, fun a' member => ?_⟩
            rcases List.mem_append.mp member with among | here
            · exact kept a' among
            · rw [List.mem_singleton.mp here]
              exact ⟨started, by simpa using held.2⟩
      · rintro ⟨before, a, after, split, starts_, kept⟩
        rcases after.eq_nil_or_concat with rfl | ⟨after, a', rfl⟩
        · obtain ⟨rfl, ⟨⟩⟩ := List.append_inj' split rfl
          rw [starts_, Option.some_or]
        · have regrouped : l ++ [last] = (before ++ a :: after) ++ [a'] := by
            rw [split, List.concat_eq_append, List.append_assoc, List.cons_append]
          obtain ⟨front, ⟨⟩⟩ := List.append_inj' regrouped rfl
          obtain ⟨quiet, stays⟩ := kept last (by simp)
          rw [quiet, Option.none_or, Option.filter_eq_some_iff]
          refine ⟨ih.mpr ⟨before, a, after, front, starts_, fun a' among => ?_⟩, by simpa using stays⟩
          exact kept a' (by simp [among])

end InForce

end Cronwatch.Theory
