/-
# Runtime.Yaml -- the values of a YAML file, and the attributes of an object

A `Yaml` is what `yaml.safe_load` makes of a document; the tuples that it makes for `!!pairs`
and `!!omap` are left out.  Only a `Scalar` can be hashed, and so be a key of a dict: two
scalars are one key when their `Scalar.key`s are equal, which `1`, `1.0` and `True` are.
`Yaml.eq` is `==`.

NaN is not equal to itself, but one NaN object is one key.  It carries the object that it
is; what other values are equal to never depends on that.  The sign of a zero is left out.
-/
import Cronwatch.Runtime.Python
import Mathlib.Data.Rat.Defs

namespace Cronwatch.Runtime

set_option autoImplicit false

universe u

/-- What `getattr` finds under a name. -/
inductive Attribute (ν : Type u) where
  | missing
  | null
  | value (v : ν)

inductive FloatValue where
  | finite (value : ℚ)
  | infinity (negative : Bool)
  | nan (object : Nat)
deriving DecidableEq

inductive Scalar where
  | none
  | bool (b : Bool)
  | int (value : Int)
  | float (value : FloatValue)
  | str (s : String)
  | bytes (content : List UInt8)
  | date (day : Int)
  /-- With or without a time zone. -/
  | datetime (aware : Bool) (time : DateTime)
deriving DecidableEq

inductive Yaml where
  | scalar (s : Scalar)
  | list (items : List Yaml)
  | dict (entries : List (Scalar × Yaml))
  | set (members : List Scalar)

namespace Scalar

/-- What a dict and a set tell scalars apart by. -/
inductive Key where
  | none
  | number (value : ℚ)
  | infinity (negative : Bool)
  | nan (object : Nat)
  | str (s : String)
  | bytes (content : List UInt8)
  | date (day : Int)
  | datetime (aware : Bool) (time : DateTime)
deriving DecidableEq

def key : Scalar → Key
  | .none => .none
  | .bool b => .number (if b then 1 else 0)
  | .int value => .number value
  | .float (.finite value) => .number value
  | .float (.infinity negative) => .infinity negative
  | .float (.nan object) => .nan object
  | .str s => .str s
  | .bytes content => .bytes content
  | .date day => .date day
  | .datetime aware time => .datetime aware time

def isNan : Scalar → Bool
  | .float (.nan _) => true
  | _ => false

/-- `a == b`. -/
def eq (a b : Scalar) : Bool := a.key = b.key ∧ a.isNan = false

@[simp] theorem key_eq_none_iff (s : Scalar) : s.key = .none ↔ s = .none := by
  rcases s with _ | _ | _ | ⟨_ | _ | _⟩ | _ | _ | _ | _ <;> simp [key]

@[simp] theorem key_eq_str_iff (s : Scalar) (text : String) : s.key = .str text ↔ s = .str text := by
  rcases s with _ | _ | _ | ⟨_ | _ | _⟩ | _ | _ | _ | _ <;> simp [key]

/-- Only NaN has the key of a NaN. -/
theorem isNan_of_key_eq {a b : Scalar} (same : a.key = b.key) : a.isNan = b.isNan := by
  rcases a with _ | _ | _ | ⟨_ | _ | _⟩ | _ | _ | _ | _ <;>
    rcases b with _ | _ | _ | ⟨_ | _ | _⟩ | _ | _ | _ | _ <;>
      first
        | rfl
        | cases same

theorem eq_none_iff (s : Scalar) : s.eq .none = true ↔ s = .none := by
  rw [eq, decide_eq_true_eq, show Scalar.none.key = .none from rfl, key_eq_none_iff]
  constructor
  · exact And.left
  · rintro rfl
    exact ⟨rfl, rfl⟩

theorem none_eq_iff (s : Scalar) : Scalar.none.eq s = true ↔ s = .none := by
  rw [eq, decide_eq_true_eq, show Scalar.none.key = .none from rfl, eq_comm (a := Key.none),
    key_eq_none_iff]
  exact and_iff_left rfl

end Scalar

/-- The value under a key. -/
def lookupKey (key : Scalar.Key) (entries : List (Scalar × Yaml)) : Option Yaml :=
  (entries.find? fun e => e.1.key = key).map Prod.snd

namespace Yaml

def none : Yaml := .scalar .none

/-- `v is None`. -/
def isNone : Yaml → Bool
  | .scalar .none => true
  | _ => false

theorem isNone_iff (v : Yaml) : v.isNone = true ↔ v = none := by
  rcases v with ⟨_ | _ | _ | _ | _ | _ | _ | _⟩ | _ | _ | _ <;> simp [isNone, none]

/-- `bool(v)`. -/
def truthy : Yaml → Bool
  | .scalar .none => false
  | .scalar (.bool b) => b
  | .scalar (.int value) => value ≠ 0
  | .scalar (.float (.finite value)) => value ≠ 0
  | .scalar (.float _) | .scalar (.date _) | .scalar (.datetime _ _) => true
  | .scalar (.str s) => s ≠ ""
  | .scalar (.bytes content) => !content.isEmpty
  | .list items => !items.isEmpty
  | .dict entries => !entries.isEmpty
  | .set members => !members.isEmpty

mutual

/-- Equal inside of a container, where a value is equal to itself. -/
def same : Yaml → Yaml → Bool
  | .scalar s, .scalar s' => s.key = s'.key
  | .list items, .list items' => sameItems items items'
  | .dict entries, .dict entries' =>
      entries.length = entries'.length ∧ sameEntries entries entries'
  | .set members, .set members' =>
      members.length = members'.length ∧ ∀ s ∈ members, ∃ s' ∈ members', s.key = s'.key
  | _, _ => false

def sameItems : List Yaml → List Yaml → Bool
  | [], [] => true
  | v :: rest, v' :: rest' => v.same v' && sameItems rest rest'
  | _, _ => false

/-- Every entry is one of the other dict. -/
def sameEntries : List (Scalar × Yaml) → List (Scalar × Yaml) → Bool
  | [], _ => true
  | (s, v) :: rest, entries' =>
      (match lookupKey s.key entries' with
        | some v' => v.same v'
        | Option.none => false) && sameEntries rest entries'

end

/-- `v == v'`. -/
def eq : Yaml → Yaml → Bool
  | .scalar s, .scalar s' => s.eq s'
  | v, v' => v.same v'

/-- Nothing but `None` is equal to `None`. -/
theorem eq_none_iff (v : Yaml) : v.eq none = true ↔ v = none := by
  cases v with
  | scalar s => exact (Scalar.eq_none_iff s).trans (by simp [none])
  | _ => simp [eq, none, same]

theorem none_eq_iff (v : Yaml) : none.eq v = true ↔ v = none := by
  cases v with
  | scalar s => exact (Scalar.none_eq_iff s).trans (by simp [none])
  | _ => simp [eq, none, same]

end Yaml

end Cronwatch.Runtime
