/-
# Theory.Pass -- one pass through a list, at most once a key, until something halts it

A pass goes through the items in order.  It serves an item that is due unless an item
with the same key was served before, and it ends at an item that halts it: after
serving the item when it is due, and without serving it when it is not.  An item whose
key was served is passed over, whatever it is.

An item is `Shadowed` when its key was served or a due item with its key stands in
front of it, and the pass `Passes` the items of a list when those that halt are
shadowed.  `filter_serve_eq_iff` says when a pass serves all the due items it is meant
to serve: exactly when none of them is shadowed and it passes what stands in front of
each.
-/
import Mathlib.Data.List.Basic

namespace Cronwatch.Theory.Pass

set_option autoImplicit false

universe u v

variable {α : Type u} {κ : Type v} (key : α → κ) (due halts : α → Bool)

/-- The items that a pass serves, given the keys served before. -/
def serve [DecidableEq κ] : List κ → List α → List α
  | _, [] => []
  | served, x :: rest =>
      if key x ∈ served then serve served rest
      else if halts x then (if due x then [x] else [])
      else if due x then x :: serve (key x :: served) rest
      else serve served rest

def Shadowed (served : List κ) (front : List α) (x : α) : Prop :=
  key x ∈ served ∨ ∃ y ∈ front, due y = true ∧ key y = key x

def Passes (served : List κ) (front : List α) : Prop :=
  ∀ first y last, front = first ++ y :: last → halts y = true → Shadowed key due served first y

/-- Nothing keeps the pass from the due items that are to be served. -/
def Undisturbed (meant : α → Bool) (served : List κ) (l : List α) : Prop :=
  ∀ front x back, l = front ++ x :: back → due x = true → meant x = true →
    ¬ Shadowed key due served front x ∧ Passes key due halts served front

section Lemmas

variable {key due halts} {served : List κ} {x : α}

theorem shadowed_nil : Shadowed key due served [] x ↔ key x ∈ served := by
  simp [Shadowed]

theorem shadowed_cons_of_due {y : α} (isDue : due y = true) (front : List α) :
    Shadowed key due served (y :: front) x ↔ Shadowed key due (key y :: served) front x := by
  rw [Shadowed, List.exists_mem_cons_iff, Shadowed, List.mem_cons]
  constructor
  · rintro (before | ⟨-, same⟩ | inFront)
    · exact .inl (.inr before)
    · exact .inl (.inl same.symm)
    · exact .inr inFront
  · rintro ((same | before) | inFront)
    · exact .inr (.inl ⟨isDue, same.symm⟩)
    · exact .inl before
    · exact .inr (.inr inFront)

theorem shadowed_cons_of_not_due {y : α} (notDue : due y = false) (front : List α) :
    Shadowed key due served (y :: front) x ↔ Shadowed key due served front x := by
  simp [Shadowed, notDue]

theorem shadowed_cons (y : α) (front : List α) : Shadowed key due served (y :: front) x ↔
    Shadowed key due (if due y then key y :: served else served) front x := by
  cases isDue : due y with
  | true => exact shadowed_cons_of_due isDue front
  | false => exact shadowed_cons_of_not_due isDue front

/-- A due item whose key was served shadows nothing more. -/
theorem shadowed_cons_of_served {y : α} (again : key y ∈ served) (front : List α) :
    Shadowed key due served (y :: front) x ↔ Shadowed key due served front x := by
  cases isDue : due y with
  | false => exact shadowed_cons_of_not_due isDue front
  | true =>
      rw [shadowed_cons_of_due isDue]
      simp only [Shadowed, List.mem_cons]
      constructor
      · rintro ((same | before) | inFront)
        · exact .inl (same ▸ again)
        · exact .inl before
        · exact .inr inFront
      · exact Or.imp_left .inr

theorem passes_nil : Passes key due halts served [] := by
  intro first y last split
  simp at split

/-- The first item of a list that is passed, and the others. -/
theorem passes_cons {served' : List κ} {y : α}
    (rest : ∀ front z, Shadowed key due served (y :: front) z ↔ Shadowed key due served' front z)
    (front : List α) : Passes key due halts served (y :: front) ↔
      (halts y = true → key y ∈ served) ∧ Passes key due halts served' front := by
  constructor
  · intro passes
    refine ⟨fun halting => shadowed_nil.mp (passes [] y front rfl halting), ?_⟩
    rintro first z last rfl halting
    exact (rest first z).mp (passes (y :: first) z last rfl halting)
  · rintro ⟨head, passes⟩ first z last split halting
    rcases first with _ | ⟨y', first⟩
    · obtain ⟨rfl, -⟩ := List.cons.inj split
      exact shadowed_nil.mpr (head halting)
    · obtain ⟨rfl, splitRest⟩ := List.cons.inj split
      exact (rest first z).mpr (passes first z last splitRest halting)

variable {meant : α → Bool}

theorem undisturbed_nil : Undisturbed key due halts meant served [] := by
  intro front x back split
  simp at split

/-- The first item of an undisturbed list, and the others. -/
theorem undisturbed_cons {served' : List κ}
    (rest : ∀ front z, Shadowed key due served (x :: front) z ↔ Shadowed key due served' front z)
    (l : List α) : Undisturbed key due halts meant served (x :: l) ↔
      (due x = true → meant x = true → key x ∉ served) ∧
        (halts x = true → key x ∉ served → ∀ z ∈ l, due z = true → meant z = false) ∧
        Undisturbed key due halts meant served' l := by
  constructor
  · intro undisturbed
    refine ⟨fun isDue isMeant again => ?_, fun halting new z member isDue => ?_, ?_⟩
    · exact (undisturbed [] x l rfl isDue isMeant).1 (shadowed_nil.mpr again)
    · obtain ⟨front, back, rfl⟩ := List.append_of_mem member
      refine Bool.eq_false_iff.mpr fun isMeant => ?_
      have passes := (undisturbed (x :: front) z back rfl isDue isMeant).2
      exact new (((passes_cons rest front).mp passes).1 halting)
    · rintro front z back rfl isDue isMeant
      obtain ⟨clear, passes⟩ := undisturbed (x :: front) z back rfl isDue isMeant
      exact ⟨fun shadowed => clear ((rest front z).mpr shadowed),
        ((passes_cons rest front).mp passes).2⟩
  · rintro ⟨head, halting, undisturbed⟩ front z back split isDue isMeant
    rcases front with _ | ⟨x', front⟩
    · obtain ⟨rfl, -⟩ := List.cons.inj split
      exact ⟨fun shadowed => head isDue isMeant (shadowed_nil.mp shadowed), passes_nil⟩
    · obtain ⟨rfl, splitRest⟩ := List.cons.inj split
      obtain ⟨clear, passes⟩ := undisturbed front z back splitRest isDue isMeant
      refine ⟨fun shadowed => clear ((rest front z).mp shadowed),
        (passes_cons rest front).mpr ⟨fun halts => ?_, passes⟩⟩
      by_contra new
      have none_ := halting halts new z (by simp [splitRest]) isDue
      rw [isMeant] at none_
      cases none_

/-- An undisturbed list has nothing to serve after an item that halts. -/
theorem undisturbed_of_halts (halting : halts x = true) (new : key x ∉ served)
    (neither : ¬ (due x = true ∧ meant x = true)) (l : List α) :
    Undisturbed key due halts meant served (x :: l) ↔
      ∀ z ∈ l, due z = true → meant z = false := by
  rw [undisturbed_cons fun _ _ => shadowed_cons x _]
  constructor
  · exact fun undisturbed => undisturbed.2.1 halting new
  · intro none_
    refine ⟨fun isDue isMeant => absurd ⟨isDue, isMeant⟩ neither, fun _ _ => none_, ?_⟩
    rintro front z back rfl isDue isMeant
    rw [none_ z (by simp) isDue] at isMeant
    cases isMeant

theorem not_meant_of_halts (goesOn : ∀ z, due z = true → meant z = true → halts z = false)
    (halting : halts x = true) : ¬ (due x = true ∧ meant x = true) := by
  rintro ⟨isDue, isMeant⟩
  rw [goesOn x isDue isMeant] at halting
  cases halting

theorem filter_cons_of_not_both {l : List α} (neither : ¬ (due x = true ∧ meant x = true)) :
    ((x :: l).filter due).filter meant = (l.filter due).filter meant := by
  rw [List.filter_filter, List.filter_filter, List.filter_cons_of_neg]
  simpa [and_comm] using neither

variable [DecidableEq κ] (key due halts)

theorem serve_sublist (served : List κ) (l : List α) :
    (serve key due halts served l).Sublist (l.filter due) := by
  induction l generalizing served with
  | nil => exact List.Sublist.refl _
  | cons x rest ih =>
      rw [serve]
      cases isDue : due x with
      | false =>
          rw [List.filter_cons_of_neg (by simp [isDue])]
          split
          · exact ih served
          · split
            · exact List.nil_sublist _
            · exact ih served
      | true =>
          rw [List.filter_cons_of_pos isDue]
          split
          · exact (ih served).cons x
          · split
            · exact (List.nil_sublist _).cons_cons x
            · exact (ih (key x :: served)).cons_cons x

variable {key due halts}

/-- **When a pass serves all it is meant to.** -/
theorem filter_serve_eq_iff (goesOn : ∀ x, due x = true → meant x = true → halts x = false)
    (served : List κ) (l : List α) :
    (serve key due halts served l).filter meant = (l.filter due).filter meant ↔
      Undisturbed key due halts meant served l := by
  induction l generalizing served with
  | nil => exact iff_of_true rfl undisturbed_nil
  | cons x rest ih =>
      rw [serve]
      by_cases again : key x ∈ served
      · -- an item whose key was served is lost when it was meant
        rw [if_pos again, undisturbed_cons fun _ _ => shadowed_cons_of_served again _, ← ih]
        by_cases both : due x = true ∧ meant x = true
        · have kept := (serve_sublist key due halts served rest).filter meant
          rw [List.filter_cons_of_pos both.1, List.filter_cons_of_pos both.2]
          refine iff_of_false (fun same => ?_) fun undisturbed => undisturbed.1 both.1 both.2 again
          have length := kept.length_le
          rw [same, List.length_cons] at length
          exact absurd length (Nat.not_succ_le_self _)
        · rw [filter_cons_of_not_both both]
          constructor
          · intro same
            exact ⟨fun isDue isMeant => absurd ⟨isDue, isMeant⟩ both, fun _ new => absurd again new,
              same⟩
          · exact fun undisturbed => undisturbed.2.2
      · rw [if_neg again]
        cases halting : halts x with
        | true =>
            -- the pass ends here, so nothing may be left to serve
            have neither := not_meant_of_halts goesOn halting
            have last : (if due x then [x] else []).filter meant = [] := by
              split
              · rename_i isDue
                simpa using fun isMeant => neither ⟨isDue, isMeant⟩
              · rfl
            rw [if_pos rfl, last, filter_cons_of_not_both neither, eq_comm, List.filter_eq_nil_iff]
            rw [undisturbed_of_halts halting again neither]
            simp
        | false =>
            rw [if_neg Bool.false_ne_true]
            cases isDue : due x with
            | true =>
                rw [if_pos rfl, undisturbed_cons fun _ _ => shadowed_cons_of_due isDue _, ← ih,
                  List.filter_cons_of_pos isDue, List.filter_cons, List.filter_cons]
                split <;> simp [again, halting]
            | false =>
                rw [if_neg Bool.false_ne_true, filter_cons_of_not_both (by simp [isDue]),
                  undisturbed_cons fun _ _ => shadowed_cons_of_not_due isDue _, ← ih]
                simp [isDue, halting]

end Lemmas

end Cronwatch.Theory.Pass
