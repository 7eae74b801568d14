/-
# Theory.Loop -- a loop that an exception leaves

`loop` runs a body over the items of a list, in order and on one state, and collects
what the bodies give; the first exception ends it, with the state as it stands.

`Reaches` says that the loop comes to an item in a state with some property.  What a
loop adds to a log is what its bodies add, each in the state that it is reached in
(`mem_loop_iff`, and `added_loop_iff` for a log that only grows).
-/
import Mathlib.Data.List.Basic

namespace Cronwatch.Theory.Loop

set_option autoImplicit false

universe u v w x y z

variable {α : Type u} {σ : Type v} {ε : Type w} {γ : Type x} {β : Type y} {δ : Type z}

section Single

variable (body : α → σ → Except ε γ × σ) (out : γ → List β)

def loop : List α → σ → Except ε (List β) × σ
  | [], s => (.ok [], s)
  | a :: rest, s =>
      match body a s with
      | (.error e, s) => (.error e, s)
      | (.ok given, s) =>
          match loop rest s with
          | (.error e, s) => (.error e, s)
          | (.ok collected, s) => (.ok (out given ++ collected), s)

/-- The loop comes to `a`, in a state with the property. -/
def Reaches (a : α) (l : List α) (s : σ) (P : σ → Prop) : Prop :=
  ∃ before after, l = before ++ a :: after ∧
    (∃ collected, (loop body out before s).1 = .ok collected) ∧ P (loop body out before s).2

variable {body out} {a : α} {rest l : List α} {s s' : σ}

theorem loop_cons_of_error {e : ε} (failed : body a s = (.error e, s')) :
    loop body out (a :: rest) s = (.error e, s') := by
  rw [loop, failed]

theorem loop_cons_of_ok {given : γ} (returned : body a s = (.ok given, s')) :
    loop body out (a :: rest) s =
      ((loop body out rest s').1.map (out given ++ ·), (loop body out rest s').2) := by
  rw [loop, returned]
  dsimp only
  split
  · rename_i e s'' ended
    rw [ended]
    rfl
  · rename_i collected s'' ended
    rw [ended]
    rfl

theorem loop_cons_returns {given : γ} (returned : body a s = (.ok given, s')) :
    (∃ collected, (loop body out (a :: rest) s).1 = .ok collected) ↔
      ∃ collected, (loop body out rest s').1 = .ok collected := by
  rw [loop_cons_of_ok returned]
  cases (loop body out rest s').1 with
  | error e =>
      constructor
      · rintro ⟨_, impossible⟩
        cases impossible
      · rintro ⟨_, impossible⟩
        cases impossible
  | ok collected => exact ⟨fun _ => ⟨_, rfl⟩, fun _ => ⟨_, rfl⟩⟩

/-- What a loop that returns has collected, from its first item and from the others. -/
theorem loop_cons_collects {given : γ} (returned : body a s = (.ok given, s')) {collected : List β}
    (ended : (loop body out (a :: rest) s).1 = .ok collected) :
    ∃ later, (loop body out rest s').1 = .ok later ∧ collected = out given ++ later := by
  rw [loop_cons_of_ok returned] at ended
  dsimp only at ended
  cases inner : (loop body out rest s').1 with
  | error e =>
      rw [inner] at ended
      cases ended
  | ok later =>
      rw [inner] at ended
      cases ended
      exact ⟨later, rfl, rfl⟩

theorem not_loop_cons_returns {e : ε} (failed : body a s = (.error e, s')) :
    ¬ ∃ collected, (loop body out (a :: rest) s).1 = .ok collected := by
  rintro ⟨collected, returned⟩
  rw [loop_cons_of_error failed] at returned
  cases returned

/-- Items that the body leaves out may be left out before. -/
theorem loop_filter {p : α → Bool}
    (skips : ∀ a s, p a = false → ∃ given, body a s = (.ok given, s) ∧ out given = []) (l : List α)
    (s : σ) : loop body out l s = loop body out (l.filter p) s := by
  induction l generalizing s with
  | nil => rfl
  | cons a rest ih =>
      cases kept : p a with
      | false =>
          obtain ⟨given, ended, nothing⟩ := skips a s kept
          rw [List.filter_cons_of_neg (Bool.eq_false_iff.mp kept), loop_cons_of_ok ended, nothing, ← ih]
          cases answer : loop body out rest s with
          | mk outcome s' => cases outcome <;> rfl
      | true =>
          rw [List.filter_cons_of_pos kept]
          rcases ended : body a s with ⟨e | given, s'⟩
          · rw [loop_cons_of_error ended, loop_cons_of_error ended]
          · rw [loop_cons_of_ok ended, loop_cons_of_ok ended, ih]

/-- What the body keeps at every item, the loop keeps. -/
theorem loop_invariant {I : σ → Prop} {l : List α} (keeps : ∀ a ∈ l, ∀ s, I s → I (body a s).2)
    (start : I s) : I (loop body out l s).2 := by
  induction l generalizing s with
  | nil => exact start
  | cons a rest ih =>
      have next := keeps a List.mem_cons_self s start
      have keepsRest := fun a' member => keeps a' (List.mem_cons_of_mem a member)
      rcases ended : body a s with ⟨e | given, s'⟩
      · rw [ended] at next
        rw [loop_cons_of_error ended]
        exact next
      · rw [ended] at next
        rw [loop_cons_of_ok ended]
        exact ih keepsRest next

/-- A loop whose body never raises, in the states that it comes to, returns. -/
theorem loop_returns {I : σ → Prop} {l : List α}
    (returns : ∀ a ∈ l, ∀ s, I s → ∃ given s', body a s = (.ok given, s') ∧ I s') (start : I s) :
    (∃ collected, (loop body out l s).1 = .ok collected) ∧ I (loop body out l s).2 := by
  induction l generalizing s with
  | nil => exact ⟨⟨[], rfl⟩, start⟩
  | cons a rest ih =>
      obtain ⟨given, s', ended, next⟩ := returns a List.mem_cons_self s start
      obtain ⟨returned, last⟩ := ih (fun a' member => returns a' (List.mem_cons_of_mem a member)) next
      refine ⟨(loop_cons_returns ended).mpr returned, ?_⟩
      rw [loop_cons_of_ok ended]
      exact last

theorem reaches_cons_iff (a' : α) (P : σ → Prop) :
    Reaches body out a' (a :: rest) s P ↔ (a' = a ∧ P s) ∨
      ∃ given s', body a s = (.ok given, s') ∧ Reaches body out a' rest s' P := by
  constructor
  · rintro ⟨before, after, split, returned, holds⟩
    rcases before with _ | ⟨first, before⟩
    · obtain ⟨rfl, -⟩ := List.cons.inj split
      exact .inl ⟨rfl, holds⟩
    · obtain ⟨rfl, splitRest⟩ := List.cons.inj split
      rcases ended : body a s with ⟨e | given, s'⟩
      · exact absurd returned (not_loop_cons_returns ended)
      · rw [loop_cons_of_ok ended] at holds
        rw [loop_cons_returns ended] at returned
        exact .inr ⟨given, s', rfl, before, after, splitRest, returned, holds⟩
  · rintro (⟨rfl, holds⟩ | ⟨given, s', ended, before, after, rfl, returned, holds⟩)
    · exact ⟨[], rest, rfl, ⟨[], rfl⟩, holds⟩
    · refine ⟨a :: before, after, rfl, (loop_cons_returns ended).mpr returned, ?_⟩
      rw [loop_cons_of_ok ended]
      exact holds

/-- **What a loop adds to a log**, when `adds a s` says that the body adds the entry. -/
theorem mem_loop_iff {log : σ → List δ} {d : δ} {adds : α → σ → Prop}
    (step : ∀ a s, d ∈ log (body a s).2 ↔ d ∈ log s ∨ adds a s) (l : List α) (s : σ) :
    d ∈ log (loop body out l s).2 ↔
      d ∈ log s ∨ ∃ a, Reaches body out a l s (adds a) := by
  induction l generalizing s with
  | nil => simp [loop, Reaches]
  | cons a rest ih =>
      have head := step a s
      simp only [reaches_cons_iff, exists_or, exists_eq_left]
      rw [← or_assoc, ← head]
      rcases ended : body a s with ⟨e | given, s'⟩
      · rw [loop_cons_of_error ended]
        simp
      · rw [loop_cons_of_ok ended, ih]
        simp

/-- ... and where the body only adds to it, the entries behind those that were there. -/
theorem added_loop_iff {log : σ → List δ} {d : δ} {adds : α → σ → Prop}
    (step : ∀ a s, ∃ new, log (body a s).2 = log s ++ new ∧ (d ∈ new ↔ adds a s)) (l : List α) (s : σ) :
    ∃ new, log (loop body out l s).2 = log s ++ new ∧
      (d ∈ new ↔ ∃ a, Reaches body out a l s (adds a)) := by
  induction l generalizing s with
  | nil => exact ⟨[], (List.append_nil _).symm, by simp [Reaches]⟩
  | cons a rest ih =>
      obtain ⟨own, grown, first⟩ := step a s
      simp only [reaches_cons_iff, exists_or, exists_eq_left]
      rcases ended : body a s with ⟨e | given, s'⟩
      · rw [ended] at grown
        rw [loop_cons_of_error ended]
        exact ⟨own, grown, by simp [first]⟩
      · rw [ended] at grown
        obtain ⟨later, grown', others⟩ := ih s'
        rw [loop_cons_of_ok ended]
        refine ⟨own ++ later, ?_, ?_⟩
        · rw [grown', grown, List.append_assoc]
        · rw [List.mem_append, first, others]
          simp

end Single

end Cronwatch.Theory.Loop
