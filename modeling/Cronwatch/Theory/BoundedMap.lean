/-
# Theory.BoundedMap -- a map that keeps its newest entries

A map with a bound, to which entries are written one after the other.  A key that is held
keeps its place and a new one comes last; whatever is in front of the newest entries goes.

`recorded` is the map after any writes.  It holds as many entries as the bound allows
(`length_recorded`), each with the value that was written last for its key
(`get?_recorded`).
-/
import Cronwatch.Theory.Dict
import Cronwatch.Theory.Splits
import Mathlib.Data.List.DropRight

namespace Cronwatch.Theory

set_option autoImplicit false

universe u v

variable {κ : Type u} {ν : Type v}

namespace Dict

/-- The last `n` entries. -/
def newest (n : Nat) (d : Dict κ ν) : Dict κ ν :=
  ⟨d.entries.rtake n, d.keysNodup.sublist ((List.drop_sublist _ d.entries).map Prod.fst)⟩

theorem keys_newest (n : Nat) (d : Dict κ ν) : (d.newest n).keys = d.keys.rtake n := by
  show (d.entries.drop (d.entries.length - n)).map Prod.fst =
    (d.entries.map Prod.fst).drop ((d.entries.map Prod.fst).length - n)
  rw [List.map_drop, List.length_map]

theorem length_keys_newest (n : Nat) (d : Dict κ ν) : (d.newest n).keys.length ≤ n := by
  rw [keys_newest, List.rtake, List.length_drop]
  omega

theorem newest_of_length_le {n : Nat} {d : Dict κ ν} (le : d.entries.length ≤ n) :
    d.newest n = d := by
  refine eq_of_entries ?_
  show d.entries.drop (d.entries.length - n) = d.entries
  rw [Nat.sub_eq_zero_of_le le, List.drop_zero]

theorem newest_subset (n : Nat) (d : Dict κ ν) {k : κ} (held : k ∈ (d.newest n).keys) :
    k ∈ d.keys := by
  rw [keys_newest] at held
  exact (List.drop_sublist _ d.keys).subset held

variable [DecidableEq κ]

theorem get?_newest {n : Nat} {d : Dict κ ν} {k : κ} (held : k ∈ (d.newest n).keys) :
    (d.newest n).get? k = d.get? k := by
  rw [mem_keys_iff, Option.isSome_iff_exists] at held
  obtain ⟨v, found⟩ := held
  have member : (k, v) ∈ d.entries :=
    (List.drop_sublist _ d.entries).subset (((d.newest n).mem_entries_iff k v).mpr found)
  rw [found, (d.mem_entries_iff k v).mp member]

end Dict

namespace BoundedMap

variable [DecidableEq κ]

/-- One write, after which the oldest entries beyond the bound go. -/
def record (bound : Nat) (d : Dict κ ν) (k : κ) (v : ν) : Dict κ ν := (d.set k v).newest bound

def recorded (bound : Nat) (writes : List (κ × ν)) : Dict κ ν :=
  writes.foldl (fun d w => record bound d w.1 w.2) .empty

/-- **A held key** keeps its place, and nothing goes. -/
theorem record_of_mem {bound : Nat} {d : Dict κ ν} (le : d.keys.length ≤ bound) {k : κ}
    (held : k ∈ d.keys) (v : ν) :
    record bound d k v = d.set k v ∧ (d.set k v).keys = d.keys := by
  have same : (d.set k v).keys = d.keys := Dict.keys_assign_of_mem v held
  have length : (d.set k v).entries.length = d.keys.length := by
    rw [← same, Dict.keys, List.length_map]
  exact ⟨Dict.newest_of_length_le (length.trans_le le), same⟩

/-- **A new key** comes last, and the oldest ones beyond the bound go. -/
theorem keys_record_of_not_mem (bound : Nat) {d : Dict κ ν} {k : κ} (new : k ∉ d.keys) (v : ν) :
    (record bound d k v).keys = (d.keys ++ [k]).rtake bound := by
  have appended : (d.set k v).keys = d.keys ++ [k] := by
    show (Dict.assign k v d.entries).map Prod.fst = _
    rw [Dict.assign_of_not_mem v new, List.map_append]
    rfl
  rw [record, Dict.keys_newest, appended]

theorem get?_record {bound : Nat} {d : Dict κ ν} {k k' : κ} {v : ν}
    (held : k' ∈ (record bound d k v).keys) :
    (record bound d k v).get? k' = if k' = k then some v else d.get? k' := by
  rw [record, Dict.get?_newest held, Dict.get?_set]

theorem recorded_append_single (bound : Nat) (writes : List (κ × ν)) (w : κ × ν) :
    recorded bound (writes ++ [w]) = record bound (recorded bound writes) w.1 w.2 :=
  List.foldl_concat ..

theorem length_recorded (bound : Nat) (writes : List (κ × ν)) :
    (recorded bound writes).keys.length ≤ bound := by
  induction writes using List.reverseRecOn with
  | nil => exact Nat.zero_le bound
  | append_singleton writes w _ =>
      rw [recorded_append_single]
      exact Dict.length_keys_newest bound _

/-- **What is held** is what was written last. -/
theorem get?_recorded (bound : Nat) (writes : List (κ × ν)) (k : κ) :
    (recorded bound writes).get? k =
      if k ∈ (recorded bound writes).keys then
        (lastWith (fun w => w.1 = k) writes).map Prod.snd
      else none := by
  split
  · rename_i held
    induction writes using List.reverseRecOn with
    | nil => cases held
    | append_singleton writes w ih =>
        rw [recorded_append_single] at held ⊢
        rw [get?_record held, lastWith_append_single]
        by_cases here : k = w.1
        · subst here
          simp
        · have before : k ∈ (recorded bound writes).keys := by
            have written := Dict.newest_subset bound _ held
            rw [Dict.mem_keys_set] at written
            exact written.resolve_left here
          rw [if_neg here, if_neg (by simpa using Ne.symm here), ih before]
  · rename_i absent
    rw [Dict.mem_keys_iff, Option.not_isSome_iff_eq_none] at absent
    exact absent

end BoundedMap

end Cronwatch.Theory
