/-
# Runtime.Clock -- days, seconds and the text of a time

`day` numbers the calendar days of the UTC time line and `midnight` is where the day
of a time begins.  `totalSeconds` of a difference is exact.  `IsoFormat` is what the
repository relies on when it stores a time as text: an aware time written by
`isoformat` is read back by `datetime.fromisoformat`, and the text is not empty.
-/
import Cronwatch.Runtime.Python
import Cronwatch.Runtime.Text
import Mathlib.Algebra.Order.Field.Rat
import Mathlib.Algebra.Order.Field.Basic
import Mathlib.Data.Rat.Cast.Order
import Mathlib.Logic.Equiv.Nat
import Mathlib.Tactic.NormNum

namespace Cronwatch.Runtime

set_option autoImplicit false

/-- The number of the calendar day; `t.date()` as far as days are compared. -/
def day (t : DateTime) : Int := t / seconds 86400

def midnight (t : DateTime) : DateTime := day t * seconds 86400

def totalSeconds (delta : Int) : ℚ := delta / 1000000

structure IsoFormat where
  isoformat : DateTime → String
  fromisoformat : String → Except PyException DateTime
  roundTrip : ∀ t, fromisoformat (isoformat t) = .ok t
  nonempty : ∀ t, isoformat t ≠ ""

namespace IsoFormat

/-- `datetime.fromisoformat(text) if text else None`, of a field that may be missing. -/
def read? (iso : IsoFormat) : Option String → Except PyException (Option DateTime)
  | none => .ok none
  | some text =>
      if text = "" then .ok none
      else
        match iso.fromisoformat text with
        | .error e => .error e
        | .ok t => .ok (some t)

@[simp] theorem read?_isoformat (iso : IsoFormat) (t : Option DateTime) :
    iso.read? (t.map iso.isoformat) = .ok t := by
  cases t with
  | none => rfl
  | some t => simp [read?, iso.nonempty, iso.roundTrip]

/-- A format that writes one time as `text`, and any other as a number. -/
def sample (time : DateTime) (text : String) (dash : '-' ∈ text.toList) : IsoFormat where
  isoformat t := if t = time then text else strOf (Equiv.intEquivNat t)
  fromisoformat written :=
    if written = text then .ok time
    else
      match intOf written with
      | some n => .ok (Equiv.intEquivNat.symm n.toNat)
      | none => .error (.valueError "Invalid isoformat string")
  roundTrip := by
    intro t
    have noDash : ∀ n : Nat, strOf n ≠ text := by
      rintro n rfl
      exact absurd (isDigit_of_mem_strOf n '-' dash) (by decide)
    by_cases here : t = time
    · rw [if_pos here, if_pos rfl, here]
    · rw [if_neg here, if_neg (noDash _), intOf_strOf]
      simp
  nonempty := by
    intro t
    split
    · rintro rfl
      cases dash
    · rw [strOf, ne_eq, String.ofList_eq_empty_iff]
      exact Nat.toDigits_ne_nil

end IsoFormat

/-- To the nearest integer, and to the even one of two that are equally near. -/
def roundHalfEven (q : ℚ) : Int :=
  let low := q.floor
  if q - low < 1 / 2 then low
  else if 1 / 2 < q - low then low + 1
  else if low % 2 = 0 then low else low + 1

/-- `f"{q:.0f}"`. -/
def fixed0 (q : ℚ) : String :=
  (if q < 0 then "-" else "") ++ strOf (roundHalfEven (if q < 0 then -q else q)).toNat

example : fixed0 (5 / 2) = "2" ∧ fixed0 (7 / 2) = "4" ∧ fixed0 (-1 / 4) = "-0" := by decide +kernel

/-- `f"{q:.1f}"`. -/
def fixed1 (q : ℚ) : String :=
  let tenths := (roundHalfEven ((if q < 0 then -q else q) * 10)).toNat
  (if q < 0 then "-" else "") ++ strOf (tenths / 10) ++ "." ++ strOf (tenths % 10)

/-- `f"{q:.2f}"`. -/
def fixed2 (q : ℚ) : String :=
  let hundredths := (roundHalfEven ((if q < 0 then -q else q) * 100)).toNat
  (if q < 0 then "-" else "") ++ strOf (hundredths / 100) ++ "." ++
    strOf (hundredths / 10 % 10) ++ strOf (hundredths % 10)

example : fixed2 (5 / 4) = "1.25" ∧ fixed2 (1 / 200) = "0.00" ∧ fixed2 (-63 / 8) = "-7.88" := by
  decide +kernel

/-- `f"{q:.3f}"`. -/
def fixed3 (q : ℚ) : String :=
  let thousandths := (roundHalfEven ((if q < 0 then -q else q) * 1000)).toNat
  (if q < 0 then "-" else "") ++ strOf (thousandths / 1000) ++ "." ++
    strOf (thousandths / 100 % 10) ++ strOf (thousandths / 10 % 10) ++ strOf (thousandths % 10)

/-! ## The text of a date -/

/-- Year, month and day of the month of the calendar day with this number, counted from
the first of January 1970.  The years are counted from the first of March, so that the
leap day is the last of its year. -/
def civil (day : Int) : Int × Int × Int :=
  let fromMarch := day + 719468
  let era := fromMarch / 146097
  let dayOfEra := fromMarch % 146097
  let yearOfEra :=
    (dayOfEra - dayOfEra / 1460 + dayOfEra / 36524 - dayOfEra / 146096) / 365
  let dayOfYear := dayOfEra - (365 * yearOfEra + yearOfEra / 4 - yearOfEra / 100)
  let month := (5 * dayOfYear + 2) / 153
  let dayOfMonth := dayOfYear - (153 * month + 2) / 5 + 1
  if month < 10 then (400 * era + yearOfEra, month + 3, dayOfMonth)
  else (400 * era + yearOfEra + 1, month - 9, dayOfMonth)

example : civil 0 = (1970, 1, 1) ∧ civil 19782 = (2024, 2, 29) ∧ civil 19783 = (2024, 3, 1) := by
  decide

/-- `n` in decimal, with zeros in front up to the width. -/
def padded (width n : Nat) : String :=
  "".pushn '0' (width - (strOf n).length) ++ strOf n

/-- `t.date().isoformat()`. -/
def isoDate (t : DateTime) : String :=
  let (year, month, dayOfMonth) := civil (day t)
  padded 4 year.toNat ++ "-" ++ padded 2 month.toNat ++ "-" ++ padded 2 dayOfMonth.toNat

/-- `t.strftime("%H:%M:%S")`. -/
def clockTime (t : DateTime) : String :=
  let second := ((t - midnight t) / seconds 1).toNat
  padded 2 (second / 3600) ++ ":" ++ padded 2 (second / 60 % 60) ++ ":" ++ padded 2 (second % 60)

example : isoDate (seconds 1717243205) = "2024-06-01" ∧ clockTime (seconds 1717243205) = "12:00:05" := by
  decide +kernel

/-! ## Days -/

theorem midnight_le (t : DateTime) : midnight t ≤ t :=
  Int.ediv_mul_le t (by decide)

/-- Of a time before the end of a day, it lies on that day or before its midnight. -/
theorem day_eq_iff {t now : DateTime} (before : t < midnight now + seconds 86400) :
    day t = day now ↔ midnight now ≤ t := by
  constructor
  · intro same
    rw [midnight, ← same]
    exact midnight_le t
  · intro after
    have positive : 0 < seconds 86400 := by decide
    have le : day now ≤ day t := (Int.le_ediv_iff_mul_le positive).mpr after
    have lt : day t < day now + 1 := by
      refine (Int.ediv_lt_iff_lt_mul positive).mpr ?_
      rw [add_mul, one_mul]
      exact before
    exact le_antisymm (Int.lt_add_one_iff.mp lt) le

theorem totalSeconds_le_iff (delta delta' : Int) :
    totalSeconds delta ≤ totalSeconds delta' ↔ delta ≤ delta' := by
  rw [totalSeconds, totalSeconds, div_le_div_iff_of_pos_right (by norm_num), Int.cast_le]

end Cronwatch.Runtime
