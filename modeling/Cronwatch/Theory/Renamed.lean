/-
# Theory.Renamed -- a map that is kept under other keys

`Renamed f g d d'` says that `d'` has the entries of `d`, each under the key that `f` makes
of its own and with the value that `g` makes of its own.  As long as `f` tells a key from
those that are held, the operations on the two maps go together: a lookup (`get?`), a write
(`set`) and a removal (`erase`).
-/
import Cronwatch.Theory.Dict

namespace Cronwatch.Theory

set_option autoImplicit false

universe u v w x

variable {κ : Type u} {ν : Type v} {φ : Type w} {ω : Type x}

def Renamed (f : κ → φ) (g : ν → ω) (d : Dict κ ν) (d' : Dict φ ω) : Prop :=
  d'.entries = d.entries.map fun e => (f e.1, g e.2)

/-- No key of the map is taken for `k`. -/
def ToldApart (f : κ → φ) (d : Dict κ ν) (k : κ) : Prop := ∀ k' ∈ d.keys, f k' = f k → k' = k

namespace Renamed

variable {f : κ → φ} {g : ν → ω} {d : Dict κ ν} {d' : Dict φ ω} {k : κ}

theorem empty : Renamed f g (.empty : Dict κ ν) .empty := rfl

theorem apart_entries (apart : ToldApart f d k) : ∀ e ∈ d.entries, f e.1 = f k → e.1 = k :=
  fun _ member => apart _ (List.mem_map_of_mem member)

variable [DecidableEq κ] [DecidableEq φ]

theorem lookup_map {es : List (κ × ν)} (apart : ∀ e ∈ es, f e.1 = f k → e.1 = k) :
    (es.map fun e => (f e.1, g e.2)).lookup (f k) = (es.lookup k).map g := by
  induction es with
  | nil => rfl
  | cons e rest ih =>
      rw [List.map_cons, Dict.lookup_cons_eq, Dict.lookup_cons_eq]
      by_cases here : k = e.1
      · rw [if_pos here, if_pos (congrArg f here)]
        rfl
      · have other : f k ≠ f e.1 := fun same => here (apart e List.mem_cons_self same.symm).symm
        rw [if_neg here, if_neg other]
        exact ih fun e' member => apart e' (List.mem_cons_of_mem e member)

theorem assign_map {es : List (κ × ν)} (v : ν) (apart : ∀ e ∈ es, f e.1 = f k → e.1 = k) :
    Dict.assign (f k) (g v) (es.map fun e => (f e.1, g e.2)) =
      (Dict.assign k v es).map fun e => (f e.1, g e.2) := by
  induction es with
  | nil => rfl
  | cons e rest ih =>
      rw [List.map_cons, Dict.assign, Dict.assign]
      by_cases here : e.1 = k
      · rw [if_pos here, if_pos (congrArg f here), List.map_cons]
      · rw [if_neg here, if_neg fun same => here (apart e List.mem_cons_self same), List.map_cons,
          ih fun e' member => apart e' (List.mem_cons_of_mem e member)]

theorem get? (renamed : Renamed f g d d') (apart : ToldApart f d k) :
    d'.get? (f k) = (d.get? k).map g := by
  rw [Dict.get?, renamed, lookup_map (apart_entries apart)]
  rfl

theorem set (renamed : Renamed f g d d') (apart : ToldApart f d k) (v : ν) :
    Renamed f g (d.set k v) (d'.set (f k) (g v)) := by
  show Dict.assign (f k) (g v) d'.entries = (Dict.assign k v d.entries).map _
  rw [renamed, assign_map v (apart_entries apart)]

theorem erase (renamed : Renamed f g d d') (apart : ToldApart f d k) :
    Renamed f g (d.erase k) (d'.erase (f k)) := by
  show d'.entries.filter _ = (d.entries.filter _).map _
  rw [renamed, List.filter_map]
  refine congrArg _ (List.filter_congr fun e member => ?_)
  have same : f e.1 = f k ↔ e.1 = k := ⟨apart_entries apart e member, congrArg f⟩
  simp [same]

end Renamed

end Cronwatch.Theory
