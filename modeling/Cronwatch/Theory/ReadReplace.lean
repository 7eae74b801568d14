/-
# Theory.ReadReplace -- places that are read, and replaced later from what was read

Things lie in places.  A reader takes a view of a place, sets some of what it has read aside for
good, and in the end replaces the place by the rest; meanwhile things are added, and there may be
any number of other readers.

What a step loses is exactly what a replacing reader has not read and nobody has set aside
(`Step.lost_iff`).  A thing that every reader of its place has read, or that is set aside, is known,
and it stays known whatever happens (`Known.step`).
-/
import Mathlib.Data.Set.Insert
import Mathlib.Logic.Function.Basic

namespace Cronwatch.Theory

set_option autoImplicit false

universe u v w

/-- What a reader has read of a place, and what it would put back by now. -/
structure View (κ : Type u) (α : Type v) where
  place : κ
  read : Set α
  back : Set α

structure Places (κ : Type u) (ρ : Type w) (α : Type v) where
  contents : κ → Set α
  aside : Set α
  view : ρ → Option (View κ α)

namespace Places

variable {κ : Type u} {α : Type v} {ρ : Type w}

/-- The thing is in the place, or set aside. -/
def Stored (w : Places κ ρ α) (k : κ) (x : α) : Prop := x ∈ w.contents k ∨ x ∈ w.aside

/-- Every reader of the place has read the thing, or it is set aside. -/
def Known (w : Places κ ρ α) (k : κ) (x : α) : Prop :=
  w.Stored k x ∧ ∀ r v, w.view r = some v → v.place = k → x ∈ v.read ∨ x ∈ w.aside

/-- Where nobody reads, everything stored is known. -/
theorem known_of_unread {w : Places κ ρ α} {k : κ} {x : α} (stored : w.Stored k x)
    (unread : ∀ r v, w.view r = some v → v.place ≠ k) : w.Known k x :=
  ⟨stored, fun r v held here => absurd here (unread r v held)⟩

/-- A reader puts back nothing but what it has read, and all of that but what is set aside. -/
def Sound (w : Places κ ρ α) : Prop :=
  ∀ r v, w.view r = some v → v.back ⊆ v.read ∧ v.read ⊆ v.back ∪ w.aside

/-- A view after that of one reader is another. -/
theorem view_update [DecidableEq ρ] {w : Places κ ρ α} {r r' : ρ} {new : Option (View κ α)}
    {v : View κ α} (held : Function.update w.view r new r' = some v) :
    new = some v ∨ w.view r' = some v := by
  by_cases own : r' = r
  · subst own
    rw [Function.update_self] at held
    exact .inl held
  · rw [Function.update_of_ne own] at held
    exact .inr held

variable [DecidableEq κ] [DecidableEq ρ]

/-- One step, with the view of the reader who replaces a place in it. -/
inductive Step : Places κ ρ α → Option (View κ α) → Places κ ρ α → Prop where
  | add (w : Places κ ρ α) (k : κ) (x : α) :
      Step w none { w with contents := Function.update w.contents k (insert x (w.contents k)) }
  | read (w : Places κ ρ α) (r : ρ) (k : κ) :
      Step w none
        { w with view := Function.update w.view r (some ⟨k, w.contents k, w.contents k⟩) }
  | setAside (w : Places κ ρ α) (r : ρ) (v : View κ α) (x : α) (back : Set α)
      (held : w.view r = some v) (within : back ⊆ v.back) (rest : v.back ⊆ insert x back) :
      Step w none
        { w with aside := insert x w.aside, view := Function.update w.view r (some { v with back }) }
  | replace (w : Places κ ρ α) (r : ρ) (v : View κ α) (held : w.view r = some v) :
      Step w (some v)
        { w with contents := Function.update w.contents v.place v.back
                 view := Function.update w.view r none }
  | leave (w : Places κ ρ α) (r : ρ) :
      Step w none { w with view := Function.update w.view r none }
  | idle (w : Places κ ρ α) : Step w none w

variable {w w' : Places κ ρ α} {put : Option (View κ α)}

theorem Step.held {v : View κ α} (step : Step w (some v) w') : ∃ r, w.view r = some v := by
  cases step with
  | replace r v held => exact ⟨r, held⟩

theorem Sound.step (sound : w.Sound) (step : Step w put w') : w'.Sound := by
  intro r' v' held
  cases step with
  | add k x => exact sound r' v' held
  | read r k =>
      rcases view_update held with new | old
      · cases new
        exact ⟨subset_rfl, Set.subset_union_left⟩
      · exact sound r' v' old
  | setAside r v x back heldBefore within rest =>
      rcases view_update held with new | old
      · cases new
        obtain ⟨only, all⟩ := sound r v heldBefore
        refine ⟨within.trans only, fun y read => ?_⟩
        rcases all read with back | aside
        · rcases rest back with rfl | still
          · exact .inr (Set.mem_insert y w.aside)
          · exact .inl still
        · exact .inr (Set.mem_insert_of_mem x aside)
      · obtain ⟨only, all⟩ := sound r' v' old
        exact ⟨only, all.trans (Set.union_subset_union_right v'.back (Set.subset_insert x w.aside))⟩
  | replace r v heldBefore =>
      rcases view_update held with new | old
      · cases new
      · exact sound r' v' old
  | leave r =>
      rcases view_update held with new | old
      · cases new
      · exact sound r' v' old
  | idle => exact sound r' v' held

/-! ## What is lost -/

/-- **What one step loses**: it is a replacement of the place, by a reader that has not read the
thing, which nobody has set aside. -/
theorem Step.lost_iff (sound : w.Sound) (step : Step w put w') {k : κ} {x : α}
    (stored : w.Stored k x) :
    ¬ w'.Stored k x ↔ ∃ v, put = some v ∧ v.place = k ∧ x ∉ v.read ∧ x ∉ w.aside := by
  -- only a replacement takes anything away
  have kept : put = none → w'.Stored k x →
      (¬ w'.Stored k x ↔ ∃ v, put = some v ∧ v.place = k ∧ x ∉ v.read ∧ x ∉ w.aside) := by
    intro none_ still
    subst none_
    refine ⟨fun lost => absurd still lost, ?_⟩
    rintro ⟨v, ⟨⟩, -⟩
  cases step with
  | add k' x' =>
      refine kept rfl (stored.imp_left fun member => ?_)
      show x ∈ Function.update w.contents k' (insert x' (w.contents k')) k
      by_cases here : k = k'
      · subst here
        rw [Function.update_self]
        exact Set.mem_insert_of_mem x' member
      · rwa [Function.update_of_ne here]
  | read r k' => exact kept rfl stored
  | setAside r v x' back held within rest =>
      exact kept rfl (stored.imp_right (Set.mem_insert_of_mem x'))
  | replace r v held =>
      obtain ⟨only, all⟩ := sound r v held
      by_cases here : v.place = k
      · subst here
        have after : x ∈ Function.update w.contents v.place v.back v.place ↔ x ∈ v.back := by
          rw [Function.update_self]
        constructor
        · intro lost
          refine ⟨v, rfl, rfl, fun read => ?_, fun aside => lost (.inr aside)⟩
          exact lost ((all read).imp_left after.mpr)
        · rintro ⟨_, ⟨⟩, -, unread, out⟩ (back | aside)
          · exact unread (only (after.mp back))
          · exact out aside
      · have still : Function.update w.contents v.place v.back k = w.contents k :=
          Function.update_of_ne (Ne.symm here) ..
        constructor
        · intro lost
          have same : x ∈ w.contents k → x ∈ Function.update w.contents v.place v.back k := by
            rw [still]
            exact id
          exact absurd (stored.imp_left same) lost
        · rintro ⟨_, ⟨⟩, there, -⟩
          exact absurd there here
  | leave r => exact kept rfl stored
  | idle => exact kept rfl stored

/-- **A known thing stays known**, and so it stays stored. -/
theorem Known.step (sound : w.Sound) (step : Step w put w') {k : κ} {x : α}
    (known : w.Known k x) : w'.Known k x := by
  obtain ⟨stored, readers⟩ := known
  refine ⟨?_, fun r' v' held' here => ?_⟩
  · by_contra lost
    obtain ⟨v, replaced, here, unread, out⟩ := (step.lost_iff sound stored).mp lost
    subst replaced
    obtain ⟨r, has⟩ := step.held
    exact (readers r v has here).elim unread out
  · cases step with
    | add k' x' => exact readers r' v' held' here
    | read r k' =>
        rcases view_update held' with new | old
        · cases new
          subst here
          exact stored
        · exact readers r' v' old here
    | setAside r v x' back heldBefore within rest =>
        rcases view_update held' with new | old
        · cases new
          exact (readers r v heldBefore here).imp_right (Set.mem_insert_of_mem x')
        · exact (readers r' v' old here).imp_right (Set.mem_insert_of_mem x')
    | replace r v heldBefore =>
        rcases view_update held' with new | old
        · cases new
        · exact readers r' v' old here
    | leave r =>
        rcases view_update held' with new | old
        · cases new
        · exact readers r' v' old here
    | idle => exact readers r' v' held' here

end Places

end Cronwatch.Theory
