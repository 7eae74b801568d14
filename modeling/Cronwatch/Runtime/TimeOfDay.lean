/-
# Runtime.TimeOfDay -- `datetime.time`, its order and its text

A time of day is a clock reading, and a UTC offset where it is aware of one.  Two times are
compared by their readings when neither has an offset, and by UTC when both have one;
otherwise the comparison raises `TypeError`.

`time?` reads the texts that `time.fromisoformat` is documented to read:
`HH[:MM[:SS[.fff[fff]]]][+HH:MM[:SS[.ffffff]]]`, with either sign before the offset.  That
is the grammar up to Python 3.10; later versions read more (`T10`, `1000`, `10:00Z`).  It
reads back what `isoformat` writes (`time?_isoformat`), and a text has an offset exactly
when it has a sign (`offset_isSome_iff`).
-/
import Cronwatch.Runtime.Clock
import Mathlib.Data.List.TakeWhile

namespace Cronwatch.Runtime

set_option autoImplicit false

/-- The microseconds of a day. -/
def dayMicros : Nat := 86400000000

/-- Microseconds after midnight. -/
structure Clock where
  micros : Nat
  lt : micros < dayMicros
deriving DecidableEq

structure Time where
  clock : Clock
  /-- `utcoffset()`, in microseconds. -/
  offset : Option Int := none
  offset_lt : ∀ o ∈ offset, o.natAbs < dayMicros
deriving DecidableEq

namespace Clock

def naive (clock : Clock) : Time where
  clock := clock
  offset_lt := by simp

/-- `at.time()` of a `datetime`, given as the microseconds of its own calendar. -/
def of (at_ : DateTime) : Clock where
  micros := (at_ % dayMicros).toNat
  lt := by
    have low := Int.emod_nonneg at_ (b := dayMicros) (by decide)
    have high := Int.emod_lt_of_pos at_ (b := dayMicros) (by decide)
    omega

@[simp] theorem micros_of (at_ : DateTime) : ((of at_).micros : Int) = at_ % dayMicros :=
  Int.toNat_of_nonneg (Int.emod_nonneg at_ (by decide))

theorem of_micros (clock : Clock) : of clock.micros = clock := by
  have lt := clock.lt
  have same : ((clock.micros : Int) % dayMicros).toNat = clock.micros := by
    rw [Int.emod_eq_of_lt (by omega) (by omega), Int.toNat_natCast]
  cases clock
  simp only [of, same]

end Clock

namespace Time

def incomparable : PyException :=
  .typeError "can't compare offset-naive and offset-aware times"

/-- `a <= b`. -/
def le (a b : Time) : Except PyException Bool :=
  match a.offset, b.offset with
  | none, none => .ok (a.clock.micros ≤ b.clock.micros)
  | some o, some o' => .ok ((a.clock.micros : Int) - o ≤ b.clock.micros - o')
  | _, _ => .error incomparable

theorem le_naive (a b : Clock) : a.naive.le b.naive = .ok (decide (a.micros ≤ b.micros)) := rfl

theorem le_of_offset {a b : Time} (differ : a.offset.isSome ≠ b.offset.isSome) :
    a.le b = .error incomparable := by
  rw [le]
  cases first : a.offset <;> cases second : b.offset
  · simp [first, second] at differ
  · rfl
  · rfl
  · simp [first, second] at differ

theorem eq_naive {t : Time} (unaware : t.offset = none) : t = t.clock.naive := by
  cases t
  cases unaware
  rfl

end Time

/-! ## Reading a text -/

def digit? (c : Char) : Option Nat := if c.isDigit then some (c.toNat - 48) else none

/-- A number of two digits. -/
def two? (c d : Char) : Option Nat :=
  match digit? c, digit? d with
  | some tens, some ones => some (10 * tens + ones)
  | _, _ => none

/-- The microseconds of a fraction of three or six digits. -/
def fraction? : List Char → Option Nat
  | [a, b, c] =>
      match two? a b, digit? c with
      | some n, some n' => some (10000 * n + 1000 * n')
      | _, _ => none
  | [a, b, c, d, e, f] =>
      match two? a b, two? c d, two? e f with
      | some n, some n', some n'' => some (10000 * n + 100 * n' + n'')
      | _, _, _ => none
  | _ => none

/-- The clock reading of these fields, when all of them are there and within range. -/
def clockOf? : Option Nat → Option Nat → Option Nat → Option Nat → Option Clock
  | some hour, some minute, some second, some micro =>
      if valid : hour < 24 ∧ minute < 60 ∧ second < 60 ∧ micro < 1000000 then
        some ⟨((hour * 60 + minute) * 60 + second) * 1000000 + micro, by
          rw [dayMicros]
          omega⟩
      else none
  | _, _, _, _ => none

/-- `HH[:MM[:SS[.fff[fff]]]]`. -/
def clock? : List Char → Option Clock
  | [h, h'] => clockOf? (two? h h') (some 0) (some 0) (some 0)
  | [h, h', ':', m, m'] => clockOf? (two? h h') (two? m m') (some 0) (some 0)
  | [h, h', ':', m, m', ':', s, s'] => clockOf? (two? h h') (two? m m') (two? s s') (some 0)
  | h :: h' :: ':' :: m :: m' :: ':' :: s :: s' :: '.' :: fraction =>
      clockOf? (two? h h') (two? m m') (two? s s') (fraction? fraction)
  | _ => none

def isSign (c : Char) : Bool := c = '+' ∨ c = '-'

/-- The offset of a clock reading behind a sign. -/
def signed (sign : Char) (clock : Clock) : Int :=
  if sign = '-' then -(clock.micros : Int) else clock.micros

/-- `HH:MM[:SS[.ffffff]]` behind a sign. -/
def aware? (clock : Clock) (sign : Char) (zone : List Char) : Option Time :=
  if zone.length = 5 ∨ zone.length = 8 ∨ zone.length = 15 then
    (clock? zone).map fun east =>
      { clock, offset := some (signed sign east), offset_lt := by
          rintro o ⟨⟩
          have lt := east.lt
          rw [signed]
          split <;> omega }
  else none

def time? (text : List Char) : Option Time :=
  match clock? (text.takeWhile fun c => !isSign c), text.dropWhile fun c => !isSign c with
  | some clock, [] => some clock.naive
  | some clock, sign :: zone => aware? clock sign zone
  | none, _ => none

/-- `time.fromisoformat(text)`. -/
def fromisoformat (text : String) : Except PyException Time :=
  match time? text.toList with
  | some t => .ok t
  | none => .error (.valueError s!"Invalid isoformat string: '{text}'")

example : fromisoformat "08:30" = .ok (Clock.of (seconds 30600)).naive ∧
    (time? "22:00:01.250-05:30".toList).map Time.offset = some (some (-19800000000)) ∧
      time? "8:30".toList = none := by
  decide +kernel

/-! ## Texts without a sign -/

theorem digit?_isDigit {c : Char} {n : Nat} (read : digit? c = some n) : c.isDigit := by
  rw [digit?] at read
  split at read
  · assumption
  · cases read

theorem two?_isDigit {c d : Char} {n : Nat} (read : two? c d = some n) :
    ∀ e ∈ [c, d], e.isDigit := by
  rw [two?] at read
  split at read
  · rename_i tens ones first second
    intro e member
    rcases List.mem_cons.mp member with rfl | later
    · exact digit?_isDigit first
    · rw [List.mem_singleton.mp later]
      exact digit?_isDigit second
  · cases read

theorem fraction?_isDigit {text : List Char} {n : Nat} (read : fraction? text = some n) :
    ∀ e ∈ text, e.isDigit := by
  rw [fraction?.eq_def] at read
  split at read
  · rename_i a b c
    split at read
    · rename_i first second
      have last : ∀ e ∈ [c], e.isDigit := by simpa using digit?_isDigit second
      exact List.forall_mem_append.mpr ⟨two?_isDigit first, last⟩
    · cases read
  · split at read
    · rename_i first second third
      exact List.forall_mem_append.mpr ⟨two?_isDigit first,
        List.forall_mem_append.mpr ⟨two?_isDigit second, two?_isDigit third⟩⟩
    · cases read
  · cases read

theorem clockOf?_fields {hour minute second micro : Option Nat} {clock : Clock}
    (made : clockOf? hour minute second micro = some clock) :
    (∃ n, hour = some n) ∧ (∃ n, minute = some n) ∧ (∃ n, second = some n) ∧
      ∃ n, micro = some n := by
  rw [clockOf?.eq_def] at made
  split at made
  · exact ⟨⟨_, rfl⟩, ⟨_, rfl⟩, ⟨_, rfl⟩, ⟨_, rfl⟩⟩
  · cases made

/-- What holds of digits, colons and dots holds of the text of a clock reading. -/
theorem clock?_forall {P : Char → Prop} (digit : ∀ c : Char, c.isDigit → P c) (colon : P ':')
    (dot : P '.') {text : List Char} {clock : Clock} (read : clock? text = some clock) :
    ∀ c ∈ text, P c := by
  have digits : ∀ {l : List Char}, (∀ e ∈ l, e.isDigit) → ∀ e ∈ l, P e :=
    fun all e member => digit e (all e member)
  have colons : ∀ e ∈ [':'], P e := by simpa using colon
  have dots : ∀ e ∈ ['.'], P e := by simpa using dot
  rw [clock?.eq_def] at read
  split at read
  · obtain ⟨⟨_, hour⟩, -⟩ := clockOf?_fields read
    exact digits (two?_isDigit hour)
  · obtain ⟨⟨_, hour⟩, ⟨_, minute⟩, -⟩ := clockOf?_fields read
    exact List.forall_mem_append.mpr ⟨digits (two?_isDigit hour),
      List.forall_mem_append.mpr ⟨colons, digits (two?_isDigit minute)⟩⟩
  · obtain ⟨⟨_, hour⟩, ⟨_, minute⟩, ⟨_, second⟩, -⟩ := clockOf?_fields read
    exact List.forall_mem_append.mpr ⟨digits (two?_isDigit hour),
      List.forall_mem_append.mpr ⟨colons, List.forall_mem_append.mpr ⟨digits (two?_isDigit minute),
        List.forall_mem_append.mpr ⟨colons, digits (two?_isDigit second)⟩⟩⟩⟩
  · obtain ⟨⟨_, hour⟩, ⟨_, minute⟩, ⟨_, second⟩, ⟨_, micro⟩⟩ := clockOf?_fields read
    exact List.forall_mem_append.mpr ⟨digits (two?_isDigit hour),
      List.forall_mem_append.mpr ⟨colons, List.forall_mem_append.mpr ⟨digits (two?_isDigit minute),
        List.forall_mem_append.mpr ⟨colons, List.forall_mem_append.mpr ⟨digits (two?_isDigit second),
          List.forall_mem_append.mpr ⟨dots, digits (fraction?_isDigit micro)⟩⟩⟩⟩⟩⟩
  · cases read

theorem not_isSign_of_isDigit (c : Char) (isDigit : c.isDigit) : isSign c = false := by
  rw [isSign, decide_eq_false_iff_not]
  rintro (rfl | rfl) <;> cases isDigit

theorem clock?_noSign {text : List Char} {clock : Clock} (read : clock? text = some clock) :
    ∀ c ∈ text, isSign c = false :=
  clock?_forall not_isSign_of_isDigit (by decide) (by decide) read

/-- **A time has an offset** exactly when its text has a sign. -/
theorem offset_isSome_iff {text : List Char} {t : Time} (read : time? text = some t) :
    t.offset.isSome ↔ ∃ c ∈ text, isSign c := by
  rw [time?.eq_def] at read
  split at read
  · rename_i clock reading whole
    cases read
    have noSign : ∀ c ∈ text, isSign c = false := by simpa using List.dropWhile_eq_nil_iff.mp whole
    simpa [Clock.naive] using noSign
  · rename_i clock sign zone reading tail
    rw [aware?] at read
    split at read
    · obtain ⟨east, -, rfl⟩ := Option.map_eq_some_iff.mp read
      have first := List.head_dropWhile_not (fun c => !isSign c) (l := text) (by simp [tail])
      have member : sign ∈ text := (List.dropWhile_sublist _).subset (by rw [tail]; simp)
      refine iff_of_true rfl ⟨sign, member, ?_⟩
      simpa [tail] using first
    · cases read
  · cases read

/-! ## Writing a time -/

def twoDigits (n : Nat) : List Char := [Nat.digitChar (n / 10), Nat.digitChar (n % 10)]

def fractionText (micro : Nat) : List Char :=
  if micro = 0 then []
  else '.' :: (twoDigits (micro / 10000) ++ twoDigits (micro / 100 % 100) ++ twoDigits (micro % 100))

namespace Clock

def hourMinute (clock : Clock) : List Char :=
  twoDigits (clock.micros / 3600000000) ++ ':' :: twoDigits (clock.micros / 60000000 % 60)

def isoformat (clock : Clock) : List Char :=
  clock.hourMinute ++ ':' :: (twoDigits (clock.micros / 1000000 % 60) ++
    fractionText (clock.micros % 1000000))

/-- The text of an offset leaves out seconds that are zero. -/
def zone (clock : Clock) : List Char :=
  if clock.micros % 60000000 = 0 then clock.hourMinute else clock.isoformat

end Clock

/-- The text behind the clock reading. -/
def zoneText : Option Int → List Char
  | none => []
  | some o => (if o < 0 then '-' else '+') :: (Clock.of o.natAbs).zone

def Time.isoformat (t : Time) : List Char := t.clock.isoformat ++ zoneText t.offset

theorem digit?_digitChar {d : Nat} (lt : d < 10) : digit? (Nat.digitChar d) = some d := by
  revert d
  decide

@[simp] theorem two?_twoDigits {n : Nat} (lt : n < 100) :
    two? (Nat.digitChar (n / 10)) (Nat.digitChar (n % 10)) = some n := by
  have tens : n / 10 < 10 := by omega
  have ones : n % 10 < 10 := by omega
  rw [two?, digit?_digitChar tens, digit?_digitChar ones]
  dsimp only
  congr 1
  omega

theorem clockOf?_eq_some {hour minute second micro : Nat} {clock : Clock}
    (valid : hour < 24 ∧ minute < 60 ∧ second < 60 ∧ micro < 1000000)
    (value : ((hour * 60 + minute) * 60 + second) * 1000000 + micro = clock.micros) :
    clockOf? (some hour) (some minute) (some second) (some micro) = some clock := by
  rw [clockOf?, dif_pos valid]
  cases clock
  simp only [value]

theorem clock?_hourMinute {clock : Clock} (whole : clock.micros % 60000000 = 0) :
    clock? clock.hourMinute = some clock := by
  have lt : clock.micros < 86400000000 := clock.lt
  show clockOf? (two? _ _) (two? _ _) (some 0) (some 0) = some clock
  rw [two?_twoDigits (by omega), two?_twoDigits (by omega)]
  exact clockOf?_eq_some (by omega) (by omega)

theorem clock?_isoformat (clock : Clock) : clock? clock.isoformat = some clock := by
  have lt : clock.micros < 86400000000 := clock.lt
  rw [Clock.isoformat, fractionText]
  split
  · show clockOf? (two? _ _) (two? _ _) (two? _ _) (some 0) = some clock
    rw [two?_twoDigits (by omega), two?_twoDigits (by omega), two?_twoDigits (by omega)]
    exact clockOf?_eq_some (by omega) (by omega)
  · show clockOf? (two? _ _) (two? _ _) (two? _ _) (fraction? [_, _, _, _, _, _]) = some clock
    rw [two?_twoDigits (by omega), two?_twoDigits (by omega), two?_twoDigits (by omega), fraction?,
      two?_twoDigits (by omega), two?_twoDigits (by omega), two?_twoDigits (by omega)]
    exact clockOf?_eq_some (by omega) (by omega)

/-- No blanks stand around the text of a clock reading. -/
theorem strip_isoformat (clock : Clock) : strip clock.isoformat = clock.isoformat :=
  strip_of_not_isSpace (clock?_forall (fun _ => not_isSpace_of_isDigit) (by decide) (by decide)
    (clock?_isoformat clock))

theorem clock?_zone (clock : Clock) : clock? clock.zone = some clock := by
  rw [Clock.zone]
  split
  · rename_i whole
    exact clock?_hourMinute whole
  · exact clock?_isoformat clock

theorem length_zone (clock : Clock) :
    clock.zone.length = 5 ∨ clock.zone.length = 8 ∨ clock.zone.length = 15 := by
  rw [Clock.zone]
  split
  · exact .inl rfl
  · rw [Clock.isoformat, fractionText]
    split
    · exact .inr (.inl rfl)
    · exact .inr (.inr rfl)

theorem time?_of_clock {text tail : List Char} {clock : Clock} (read : clock? text = some clock)
    (first : ∀ sign ∈ tail.head?, isSign sign) :
    time? (text ++ tail) = match tail with
      | [] => some clock.naive
      | sign :: zone => aware? clock sign zone := by
  have noSign : ∀ c ∈ text, (!isSign c) = true := by simpa using clock?_noSign read
  have before : (text ++ tail).takeWhile (fun c => !isSign c) = text := by
    rw [List.takeWhile_append_of_pos noSign]
    cases tail with
    | nil => simp
    | cons sign zone =>
        have sign_ := first sign rfl
        simp [sign_]
  have behind : (text ++ tail).dropWhile (fun c => !isSign c) = tail := by
    rw [List.dropWhile_append_of_pos noSign]
    cases tail with
    | nil => rfl
    | cons sign zone =>
        have sign_ := first sign rfl
        simp [sign_]
  rw [time?, before, behind, read]
  cases tail <;> rfl

/-- **Reading back a time.** -/
theorem time?_isoformat (t : Time) : time? t.isoformat = some t := by
  rw [Time.isoformat]
  obtain ⟨clock, offset, offset_lt⟩ := t
  cases offset with
  | none =>
      rw [zoneText, time?_of_clock (clock?_isoformat clock) (by simp)]
      rfl
  | some o =>
      have lt := offset_lt o rfl
      have sign : isSign (if o < 0 then '-' else '+') := by split <;> rfl
      rw [zoneText, time?_of_clock (clock?_isoformat clock) (by simpa using sign)]
      dsimp only
      rw [aware?, if_pos (length_zone _), clock?_zone]
      have east : (Clock.of o.natAbs).micros = o.natAbs := by
        have of_micros := Clock.of_micros ⟨o.natAbs, lt⟩
        rw [of_micros]
      have back : signed (if o < 0 then '-' else '+') (Clock.of o.natAbs) = o := by
        rw [signed, east]
        by_cases west : o < 0
        · rw [if_pos west, if_pos rfl]
          omega
        · rw [if_neg west, if_neg (by decide)]
          omega
      simp only [Option.map_some, back]

end Cronwatch.Runtime
