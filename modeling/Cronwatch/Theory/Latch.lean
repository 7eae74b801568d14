/-
# Theory.Latch -- one attempt per key until the key is let go

A body goes over items, each with a key.  It leaves out an item whose key is marked, and tries the
others; an attempt that succeeds marks the key, and one that raises ends the loop.  With `early`
the key is marked before the attempt, so that a failure marks it as well.

* `Latched.loop_spec`: what a loop of such bodies tries is `fresh`, the first item of every key
  that is not marked, up to the first that fails.
* `Follows`: in a log of attempts and resets the marks are what the log says.  Two attempts with
  one key, the first of which marks it, have a reset of the key between them (`Follows.once`).
-/
import Cronwatch.Theory.Flag
import Cronwatch.Theory.Loop
import Cronwatch.Theory.Splits

namespace Cronwatch.Theory.Latch

set_option autoImplicit false

open Cronwatch.Theory.Loop

universe u v w x

variable {α : Type u} {κ : Type v} {σ : Type w} {ε : Type x} [DecidableEq κ]

/-! ## The items that are tried -/

section Fresh

variable (key : α → κ)

/-- The first item of every key that is not marked. -/
def fresh (marked : κ → Bool) : List α → List α
  | [] => []
  | a :: rest =>
      if marked (key a) then fresh marked rest
      else a :: fresh (fun k => k = key a || marked k) rest

variable {key}

theorem mem_of_fresh {marked : κ → Bool} {items : List α} {a : α} (member : a ∈ fresh key marked items) :
    a ∈ items ∧ marked (key a) = false := by
  induction items generalizing marked with
  | nil => cases member
  | cons first rest ih =>
      rw [fresh] at member
      split at member
      · exact (ih member).imp_left (List.mem_cons_of_mem first)
      · rename_i unmarked
        rcases List.mem_cons.mp member with rfl | later
        · exact ⟨List.mem_cons_self, by simpa using unmarked⟩
        · obtain ⟨among, free⟩ := ih later
          rw [Bool.or_eq_false_iff] at free
          exact ⟨List.mem_cons_of_mem first among, free.2⟩

/-- No key is tried twice. -/
theorem nodup_fresh (marked : κ → Bool) (items : List α) : ((fresh key marked items).map key).Nodup := by
  induction items generalizing marked with
  | nil => exact List.nodup_nil
  | cons first rest ih =>
      rw [fresh]
      split
      · exact ih marked
      · rw [List.map_cons, List.nodup_cons]
        refine ⟨fun again => ?_, ih _⟩
        obtain ⟨a, member, same⟩ := List.mem_map.mp again
        have free := (mem_of_fresh member).2
        simp [same] at free

/-- Every key that is not marked is tried. -/
theorem key_mem_fresh {marked : κ → Bool} {items : List α} {a : α} (member : a ∈ items)
    (unmarked : marked (key a) = false) : key a ∈ (fresh key marked items).map key := by
  induction items generalizing marked with
  | nil => cases member
  | cons first rest ih =>
      rw [fresh]
      rcases List.mem_cons.mp member with rfl | later
      · rw [if_neg (by simp [unmarked])]
        exact List.mem_map_of_mem List.mem_cons_self
      · split
        · exact ih later unmarked
        · rw [List.map_cons, List.mem_cons]
          by_cases same : key a = key first
          · exact .inl same
          · exact .inr (ih later (by simp [same, unmarked]))

/-- Items whose keys are different are tried where they are not marked. -/
theorem fresh_of_nodup {marked : κ → Bool} {items : List α} (distinct : (items.map key).Nodup) :
    fresh key marked items = items.filter fun a => !marked (key a) := by
  induction items generalizing marked with
  | nil => rfl
  | cons first rest ih =>
      rw [List.map_cons, List.nodup_cons] at distinct
      rw [fresh, List.filter_cons]
      by_cases held : marked (key first) = true
      · rw [if_pos held, ih distinct.2]
        simp [held]
      · rw [if_neg held, ih distinct.2]
        have others : (rest.filter fun a => !(decide (key a = key first) || marked (key a))) =
            rest.filter fun a => !marked (key a) := by
          apply List.filter_congr
          intro a member
          have other : key a ≠ key first := fun same => distinct.1 (same ▸ List.mem_map_of_mem member)
          simp [other]
        simpa [held] using others

end Fresh

/-! ## The loop -/

/-- What the body does with an item: it leaves it out, tries it with success, or fails. -/
structure Latched (key : α → κ) (early : Bool) (body : α → σ → Except ε (Option α) × σ)
    (marked : σ → κ → Bool) (tried : σ → List (α × Bool)) (P : α → Prop) : Prop where
  held : ∀ a s, P a → marked s (key a) = true → body a s = (.ok none, s)
  free : ∀ a s, P a → marked s (key a) = false →
    (∃ s', body a s = (.ok (some a), s') ∧ tried s' = tried s ++ [(a, true)] ∧
      ∀ k, marked s' k = (decide (k = key a) || marked s k)) ∨
    (∃ e s', body a s = (.error e, s') ∧ tried s' = tried s ++ [(a, false)] ∧
      ∀ k, marked s' k = ((early && decide (k = key a)) || marked s k))

/-- What a loop leaves that was to try the items `new`: all were tried, or they were up to one
that failed. -/
def Left (key : α → κ) (early : Bool) (marked : κ → Bool) (tried : List (α × Bool)) (new : List α)
    (outcome : Except ε (List α)) (marked' : κ → Bool) (tried' : List (α × Bool)) : Prop :=
  (outcome = .ok new ∧ tried' = tried ++ new.map (fun a => (a, true)) ∧
    ∀ k, marked' k = (decide (k ∈ new.map key) || marked k)) ∨
  ∃ front a back e, new = front ++ a :: back ∧ outcome = .error e ∧
    tried' = tried ++ (front.map (fun a => (a, true)) ++ [(a, false)]) ∧
    ∀ k, marked' k = (decide (k ∈ front.map key) || (early && decide (k = key a)) || marked k)

/-- The same without the marks. -/
def Made (tried : List (α × Bool)) (new : List α) (outcome : Except ε (List α))
    (tried' : List (α × Bool)) : Prop :=
  (outcome = .ok new ∧ tried' = tried ++ new.map fun a => (a, true)) ∨
  ∃ front a back e, new = front ++ a :: back ∧ outcome = .error e ∧
    tried' = tried ++ (front.map (fun a => (a, true)) ++ [(a, false)])

theorem Left.made {key : α → κ} {early : Bool} {marked marked' : κ → Bool} {tried tried' : List (α × Bool)}
    {new : List α} {outcome : Except ε (List α)}
    (left : Left key early marked tried new outcome marked' tried') : Made tried new outcome tried' := by
  rcases left with ⟨returned, made, -⟩ | ⟨front, a, back, e, split, raised, made, -⟩
  · exact .inl ⟨returned, made⟩
  · exact .inr ⟨front, a, back, e, split, raised, made⟩

section Loop

variable {key : α → κ} {early : Bool} {body : α → σ → Except ε (Option α) × σ}
  {marked : σ → κ → Bool} {tried : σ → List (α × Bool)} {P : α → Prop}

/-- A loop that has tried its first item. -/
theorem Left.cons {first : α} {marked₀ marked₁ marked' : κ → Bool} {tried₀ tried' : List (α × Bool)}
    {new : List α} {outcome : Except ε (List α)}
    (marks : ∀ k, marked₁ k = (decide (k = key first) || marked₀ k))
    (left : Left key early marked₁ (tried₀ ++ [(first, true)]) new outcome marked' tried') :
    Left key early marked₀ tried₀ (first :: new) (outcome.map (first :: ·)) marked' tried' := by
  rcases left with ⟨rfl, rfl, after⟩ | ⟨front, a, back, e, rfl, rfl, rfl, after⟩
  · refine .inl ⟨rfl, by simp, fun k => ?_⟩
    rw [after, marks, List.map_cons]
    by_cases here : k = key first <;> simp [here]
  · refine .inr ⟨first :: front, a, back, e, rfl, rfl, by simp, fun k => ?_⟩
    rw [after, marks, List.map_cons]
    by_cases here : k = key first <;> simp [here]

/-- **What the loop tries** is the first item of every key that is not marked, up to the first
that fails. -/
theorem Latched.loop_spec (latched : Latched key early body marked tried P) {items : List α}
    (all : ∀ a ∈ items, P a) (s : σ) :
    Left key early (marked s) (tried s) (fresh key (marked s) items)
      (loop body Option.toList items s).1 (marked (loop body Option.toList items s).2)
      (tried (loop body Option.toList items s).2) := by
  induction items generalizing s with
  | nil => exact .inl ⟨rfl, by simp [fresh, loop], fun k => by simp [fresh, loop]⟩
  | cons first rest ih =>
      have later := fun a member => all a (List.mem_cons_of_mem first member)
      have here := all first List.mem_cons_self
      rw [fresh]
      cases is : marked s (key first) with
      | true =>
          have same : ∀ outcome : Except ε (List α), outcome.map ((none : Option α).toList ++ ·) = outcome := by
            intro outcome
            cases outcome <;> rfl
          rw [if_pos rfl, loop_cons_of_ok (latched.held first s here is), same]
          exact ih later s
      | false =>
          rw [if_neg Bool.false_ne_true]
          rcases latched.free first s here is with ⟨s', ended, grew, marks⟩ | ⟨e, s', ended, grew, marks⟩
          · have next := ih later s'
            rw [show marked s' = fun k => decide (k = key first) || marked s k from funext marks,
              grew] at next
            rw [loop_cons_of_ok ended]
            exact next.cons fun _ => rfl
          · rw [loop_cons_of_error ended]
            refine .inr ⟨[], first, _, e, rfl, rfl, grew, fun k => ?_⟩
            rw [marks, List.map_nil]
            simp

end Loop

/-! ## A log of attempts and resets -/

inductive Entry (α : Type u) (κ : Type v) where
  | tried (a : α) (success : Bool)
  /-- The keys that are let go. -/
  | reset (which : κ → Bool)

section Log

variable (key : α → κ) (early : Bool)

def Entry.marks (k : κ) : Entry α κ → Bool
  | .tried a success => (early || success) && decide (k = key a)
  | .reset _ => false

def Entry.lets (k : κ) : Entry α κ → Bool
  | .tried _ _ => false
  | .reset which => which k

/-- The key is marked, by what the log says. -/
def markedIn (k : κ) (log : List (Entry α κ)) : Bool :=
  flag (Entry.marks key early k) (Entry.lets k) log

variable {key early} in
/-- The key has been tried in a way that marks it, and has not been let go since. -/
theorem markedIn_iff (k : κ) (log : List (Entry α κ)) :
    markedIn key early k log = true ↔ ∃ before a success after,
      log = before ++ .tried a success :: after ∧ key a = k ∧ (early || success) = true ∧
        ∀ which, .reset which ∈ after → which k = false := by
  rw [markedIn, flag_iff]
  constructor
  · rintro ⟨before, e, after, rfl, marks, kept⟩
    cases e with
    | reset which => cases marks
    | tried a success =>
        rw [Entry.marks, Bool.and_eq_true, decide_eq_true_eq] at marks
        exact ⟨before, a, success, after, rfl, marks.2.symm, marks.1, fun which member => kept _ member⟩
  · rintro ⟨before, a, success, after, rfl, same, marks, kept⟩
    refine ⟨before, _, after, rfl, by simp [Entry.marks, same, marks], fun e member => ?_⟩
    cases e with
    | tried b success => rfl
    | reset which => exact kept which member

/-- The marks are what the log says, and every attempt had an unmarked key. -/
structure Follows (log : List (Entry α κ)) (marked : κ → Bool) : Prop where
  marks : ∀ k, marked k = markedIn key early k log
  unmarked : ∀ before e after, log = before ++ e :: after →
    ∀ a success, e = .tried a success → markedIn key early (key a) before = false

variable {key early} {log : List (Entry α κ)} {marked marked' : κ → Bool}

theorem Follows.start : Follows key early ([] : List (Entry α κ)) fun _ => false where
  marks := fun _ => rfl
  unmarked := forall_splits_nil

/-- An attempt. -/
theorem Follows.tried (follows : Follows key early log marked) {a : α} (free : marked (key a) = false)
    (success : Bool)
    (marks : ∀ k, marked' k = ((early || success) && decide (k = key a) || marked k)) :
    Follows key early (log ++ [.tried a success]) marked' where
  marks := by
    intro k
    rw [marks, markedIn, flag_append_single, ← markedIn, ← follows.marks, flagAfter, Entry.marks,
      Entry.lets]
    cases (early || success) && decide (k = key a) <;> simp
  unmarked := by
    refine (forall_splits_append_single _ _).mpr ⟨follows.unmarked, ?_⟩
    rintro b success' ⟨⟩
    rw [← follows.marks, free]

/-- A reset. -/
theorem Follows.reset (follows : Follows key early log marked) (which : κ → Bool) :
    Follows key early (log ++ [.reset which]) fun k => !which k && marked k where
  marks := by
    intro k
    rw [markedIn, flag_append_single, ← markedIn, ← follows.marks, flagAfter, Entry.marks,
      Entry.lets]
    cases which k <;> simp
  unmarked := by
    refine (forall_splits_append_single _ _).mpr ⟨follows.unmarked, ?_⟩
    rintro b success ⟨⟩

/-- Attempts that all succeed, with keys that are different and not marked. -/
theorem Follows.tried_all (follows : Follows key early log marked) {items : List α}
    (distinct : (items.map key).Nodup) (free : ∀ a ∈ items, marked (key a) = false) :
    Follows key early (log ++ items.map (.tried · true))
      fun k => decide (k ∈ items.map key) || marked k := by
  induction items using List.reverseRecOn with
  | nil => simpa using follows
  | append_singleton front a ih =>
      rw [List.map_append, List.nodup_append] at distinct
      have earlier := ih distinct.1 fun b member => free b (List.mem_append_left _ member)
      have new : key a ∉ front.map key := fun member =>
        distinct.2.2 (key a) member (key a) (List.mem_singleton_self (key a)) rfl
      rw [List.map_append, ← List.append_assoc]
      refine earlier.tried (by simpa [new] using free a (by simp)) true fun k => ?_
      rw [Bool.or_true, Bool.true_and, List.map_append, List.map_singleton, ← Bool.or_assoc]
      congr 1
      rw [Bool.eq_iff_iff]
      simp [or_comm]

/-- A whole loop. -/
theorem Follows.loop {ε : Type x} (follows : Follows key early log marked) {tried tried' : List (α × Bool)}
    {items : List α} {outcome : Except ε (List α)}
    (left : Left key early marked tried (fresh key marked items) outcome marked' tried') :
    ∃ more, tried' = tried ++ more ∧
      Follows key early (log ++ more.map fun e => .tried e.1 e.2) marked' := by
  have distinct : ((fresh key marked items).map key).Nodup := nodup_fresh marked items
  have free : ∀ a ∈ fresh key marked items, marked (key a) = false := fun a member => (mem_of_fresh member).2
  rcases left with ⟨-, rfl, marks⟩ | ⟨front, a, back, e, split, -, rfl, marks⟩
  · refine ⟨_, rfl, ?_⟩
    rw [List.map_map, show marked' = _ from funext marks]
    exact follows.tried_all distinct free
  · refine ⟨_, rfl, ?_⟩
    rw [split, List.map_append, List.nodup_append] at distinct
    rw [split] at free
    have earlier := follows.tried_all distinct.1 fun b member => free b (List.mem_append_left _ member)
    have new : key a ∉ front.map key := fun member =>
      distinct.2.2 (key a) member (key a) (by simp) rfl
    rw [List.map_append, List.map_map, ← List.append_assoc]
    refine earlier.tried (by simpa [new] using free a (by simp)) false fun k => ?_
    rw [marks, Bool.or_false, Bool.or_assoc]
    exact Bool.or_left_comm _ _ _

/-- **One attempt per key until it is let go**: behind an attempt that marks its key, the key is
not tried again before a reset of it. -/
theorem Follows.once (follows : Follows key early log marked) {before between after : List (Entry α κ)}
    {a b : α} {success success' : Bool}
    (split : log = before ++ .tried a success :: (between ++ .tried b success' :: after))
    (same : key b = key a) (marks : (early || success) = true) :
    ∃ which, .reset which ∈ between ∧ which (key a) = true := by
  have regrouped : log = (before ++ .tried a success :: between) ++ .tried b success' :: after := by
    rw [split, List.append_assoc, List.cons_append]
  have down := follows.unmarked _ _ _ regrouped b success' rfl
  rw [same] at down
  obtain ⟨e, member, lets⟩ := exists_lowering (by simp [Entry.marks, marks]) down
  cases e with
  | tried c success => cases lets
  | reset which => exact ⟨which, member, lets⟩

end Log

end Cronwatch.Theory.Latch
