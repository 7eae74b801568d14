/-
# Theory.Flag -- up since some entry of a log, with no entry since that takes it down

Entries of a log raise a flag, lower it or leave it.  `flag` is how it stands at the end
of a log; `flag_iff` says what that means, and `exists_lowering` that between two
entries that find it down, the first of which raises it, there is one that lowers it.
-/
import Mathlib.Data.List.Induction

namespace Cronwatch.Theory

set_option autoImplicit false

universe u

section Flag

variable {ε : Type u} (raises lowers : ε → Bool)

def flagAfter (up : Bool) (e : ε) : Bool :=
  if raises e then true else if lowers e then false else up

def flag (log : List ε) : Bool := log.foldl (flagAfter raises lowers) false

theorem flag_append (log log' : List ε) :
    flag raises lowers (log ++ log') =
      log'.foldl (flagAfter raises lowers) (flag raises lowers log) :=
  List.foldl_append

theorem flag_append_single (log : List ε) (e : ε) :
    flag raises lowers (log ++ [e]) = flagAfter raises lowers (flag raises lowers log) e :=
  flag_append raises lowers log [e]

variable {raises lowers}

/-- An entry that neither raises nor lowers the flag leaves it. -/
theorem flagAfter_of_neither {up : Bool} {e : ε} (raised : raises e = false)
    (lowered : lowers e = false) : flagAfter raises lowers up e = up := by
  rw [flagAfter, raised, lowered]
  rfl

/-- A flag that is up stays up while nothing lowers it. -/
theorem foldl_of_up {log : List ε} (kept : ∀ e ∈ log, lowers e = false) :
    log.foldl (flagAfter raises lowers) true = true := by
  induction log with
  | nil => rfl
  | cons e rest ih =>
      have next : flagAfter raises lowers true e = true := by
        rw [flagAfter, kept e List.mem_cons_self]
        split <;> rfl
      rw [List.foldl_cons, next]
      exact ih fun e' member => kept e' (List.mem_cons_of_mem e member)

theorem flag_append_of_up {log log' : List ε} (up : flag raises lowers log = true)
    (kept : ∀ e ∈ log', lowers e = false) : flag raises lowers (log ++ log') = true := by
  rw [flag_append, up]
  exact foldl_of_up kept

/-- **When the flag is up**: something has raised it, and nothing has lowered it since. -/
theorem flag_iff (log : List ε) :
    flag raises lowers log = true ↔ ∃ before e after, log = before ++ e :: after ∧
      raises e = true ∧ ∀ e' ∈ after, lowers e' = false := by
  constructor
  · induction log using List.reverseRecOn with
    | nil =>
        intro impossible
        cases impossible
    | append_singleton log e ih =>
        intro up
        rw [flag_append_single, flagAfter] at up
        split at up
        · rename_i raised
          exact ⟨log, e, [], rfl, raised, by simp⟩
        · split at up
          · cases up
          · rename_i stays
            obtain ⟨before, e', after, rfl, raised, kept⟩ := ih up
            refine ⟨before, e', after ++ [e], by simp, raised, fun e'' member => ?_⟩
            rcases List.mem_append.mp member with earlier | last
            · exact kept e'' earlier
            · rw [List.mem_singleton.mp last]
              exact Bool.eq_false_iff.mpr stays
  · rintro ⟨before, e, after, rfl, raised, kept⟩
    refine (congrArg (flag raises lowers) (List.append_cons before e after)).trans ?_
    refine flag_append_of_up ?_ kept
    rw [flag_append_single, flagAfter, if_pos raised]

/-- **Between a raise and an entry that finds the flag down**, something lowers it. -/
theorem exists_lowering {before between : List ε} {e : ε} (raised : raises e = true)
    (down : flag raises lowers (before ++ e :: between) = false) :
    ∃ e' ∈ between, lowers e' = true := by
  by_contra none_
  have kept : ∀ e' ∈ between, lowers e' = false := fun e' member =>
    Bool.eq_false_iff.mpr fun lowered => none_ ⟨e', member, lowered⟩
  have up : flag raises lowers (before ++ [e]) = true := by
    rw [flag_append_single, flagAfter, if_pos raised]
  have still := flag_append_of_up up kept
  rw [List.append_assoc, List.singleton_append, down] at still
  cases still

end Flag

end Cronwatch.Theory
