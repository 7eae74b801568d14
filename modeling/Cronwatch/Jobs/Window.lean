/-
# Jobs.Window -- the times of day at which a job may run

A window is a pair of times.  `within_window` compares the time of day with both ends, and
takes a window whose start is after its end as one that goes over midnight.  On naive times
each window is an arc of the day (`withinWindow_arcs`).

`parse_window` splits its text at the first minus sign and leaves the rest to
`time.fromisoformat`, which reads UTC offsets too.  A window with one is accepted, and every
later comparison raises (`accepted_usable_iff`).
-/
import Cronwatch.Jobs.Executor
import Cronwatch.Runtime.TimeOfDay
import Cronwatch.Theory.Arc
import Cronwatch.Theory.Dict

namespace Cronwatch.Jobs

set_option autoImplicit false

open Cronwatch.Theory Cronwatch.Runtime

abbrev Window := Time × Time

structure WindowPolicy where
  windows : Dict String (List Window) := .empty

def WindowPolicy.windowsFor (jobName : String) (policy : WindowPolicy) : List Window :=
  (policy.windows.get? jobName).getD []

namespace Window

/-- One turn of the loop: whether this window makes it return `True`. -/
def holds (checkTime : Time) (window : Window) : Except PyException Bool := do
  let (start, ending) := window
  if ← start.le ending then
    if ← start.le checkTime then checkTime.le ending else return false
  else
    -- over midnight
    if ← start.le checkTime then return true else checkTime.le ending

def anyHolds (checkTime : Time) : List Window → Except PyException Bool
  | [] => return false
  | window :: rest => do if ← window.holds checkTime then return true else anyHolds checkTime rest

/-- `within_window(windows, at)`; `utcnow` is read when `at` is not given. -/
def withinWindow (utcnow : DateTime) (windows : List Window) (at_ : Option DateTime) :
    Except PyException Bool :=
  if windows.isEmpty then .ok true
  else anyHolds (Clock.of (at_.getD utcnow)).naive windows

/-! ## Arcs of the day -/

/-- A window of naive times. -/
def naive (window : Clock × Clock) : Window := (window.1.naive, window.2.naive)

/-- The window `d` microseconds later, round the clock. -/
def turned (d : Int) (window : Clock × Clock) : Clock × Clock :=
  (Clock.of (window.1.micros + d), Clock.of (window.2.micros + d))

theorem holds_naive (checkTime : Clock) (window : Clock × Clock) :
    (naive window).holds checkTime.naive =
      .ok (decide (OnArc dayMicros window.1.micros window.2.micros checkTime.micros)) := by
  obtain ⟨start, ending⟩ := window
  have startLt := start.lt
  have endingLt := ending.lt
  have checkLt := checkTime.lt
  have arc := @onArc_iff dayMicros start.micros ending.micros checkTime.micros
    (by omega) (by omega) (by omega) (by omega) (by omega) (by omega)
  simp only [holds, naive, Time.le_naive]
  by_cases ordinary : start.micros ≤ ending.micros
  · by_cases begun : start.micros ≤ checkTime.micros
    · simp [ordinary, begun, arc, bind, Except.bind]
    · simp [ordinary, begun, arc, bind, Except.bind, pure, Except.pure]
  · by_cases begun : start.micros ≤ checkTime.micros
    · simp [ordinary, begun, arc, bind, Except.bind, pure, Except.pure]
    · simp [ordinary, begun, arc, bind, Except.bind]

theorem anyHolds_naive (checkTime : Clock) (windows : List (Clock × Clock)) :
    anyHolds checkTime.naive (windows.map naive) =
      .ok (windows.any fun window =>
        OnArc dayMicros window.1.micros window.2.micros checkTime.micros) := by
  induction windows with
  | nil => rfl
  | cons window rest ih =>
      rw [List.map_cons, anyHolds, holds_naive, List.any_cons, ih]
      by_cases on : OnArc dayMicros window.1.micros window.2.micros checkTime.micros
      · simp [on, bind, Except.bind, pure, Except.pure]
      · simp [on, bind, Except.bind]

theorem withinWindow_naive (utcnow t : DateTime) (windows : List (Clock × Clock)) :
    withinWindow utcnow (windows.map naive) (some t) =
      .ok (windows.isEmpty || windows.any fun window =>
        OnArc dayMicros window.1.micros window.2.micros t) := by
  have onDay : ∀ window : Clock × Clock,
      OnArc dayMicros window.1.micros window.2.micros (Clock.of t).micros ↔
        OnArc dayMicros window.1.micros window.2.micros t := by
    intro window
    rw [Clock.micros_of, onArc_emod_right]
  rw [withinWindow, List.isEmpty_map, Option.getD_some, anyHolds_naive]
  simp only [onDay]
  cases windows with
  | nil => rfl
  | cons window rest => rfl

theorem onArc_turned (d t : Int) (window : Clock × Clock) :
    OnArc dayMicros (turned d window).1.micros (turned d window).2.micros (t + d) ↔
      OnArc dayMicros window.1.micros window.2.micros t := by
  rw [turned, Clock.micros_of, Clock.micros_of, onArc_emod, onArc_shift]

/-- **Windows are arcs of the day**: each admits the times that are met, going round from
its start, no later than its end. -/
structure ArcsOfTheDay : Prop where
  admitted : ∀ (utcnow t : DateTime) (windows : List (Clock × Clock)),
    ∃ inside, withinWindow utcnow (windows.map naive) (some t) = .ok inside ∧
      (inside = true ↔ windows = [] ∨ ∃ window ∈ windows,
        (t - window.1.micros) % dayMicros ≤ ((window.2.micros : Int) - window.1.micros) % dayMicros)
  turned : ∀ (utcnow t d : Int) (windows : List (Clock × Clock)),
    withinWindow utcnow ((windows.map (turned d)).map naive) (some (t + d)) =
      withinWindow utcnow (windows.map naive) (some t)
  refused : ∀ (utcnow t : DateTime) (start ending : Clock), ending.micros < start.micros →
    (withinWindow utcnow [naive (start, ending)] (some t) = .ok false ↔
      ending.micros < t % dayMicros ∧ t % dayMicros < start.micros)

theorem withinWindow_arcs : ArcsOfTheDay where
  admitted := by
    intro utcnow t windows
    refine ⟨_, withinWindow_naive utcnow t windows, ?_⟩
    rw [Bool.or_eq_true, List.isEmpty_iff, List.any_eq_true]
    simp only [decide_eq_true_eq]
    exact Iff.rfl
  turned := by
    intro utcnow t d windows
    rw [withinWindow_naive, withinWindow_naive, List.isEmpty_map, List.any_map]
    simp only [Function.comp_def, onArc_turned]
  refused := by
    intro utcnow t start ending wraps
    have startLt := start.lt
    have low := Int.emod_nonneg t (b := dayMicros) (by decide)
    have high := Int.emod_lt_of_pos t (b := dayMicros) (by decide)
    have arc := @onArc_iff dayMicros start.micros ending.micros (t % dayMicros)
      (by omega) (by omega) (by omega) (by omega) low high
    rw [onArc_emod_right, if_neg (by omega)] at arc
    have one := withinWindow_naive utcnow t [(start, ending)]
    rw [List.map_singleton] at one
    simp only [one, List.isEmpty_cons, Bool.false_or, List.any_cons, List.any_nil,
      Bool.or_false, Except.ok.injEq, decide_eq_false_iff_not, arc, not_or, not_le]
    exact and_comm

/-! ## Windows from texts -/

/-- `raw.split("-", 1)`, when it has two parts. -/
def halves (raw : List Char) : Option (List Char × List Char) :=
  match raw.dropWhile (· ≠ '-') with
  | [] => none
  | _ :: after => some (raw.takeWhile (· ≠ '-'), after)

/-- The time between blanks. -/
def timeOf (half : List Char) : Except PyException Time :=
  fromisoformat (String.ofList (strip half))

/-- The body of the `try` block. -/
def read (raw : String) : Except PyException Window :=
  match halves raw.toList with
  | none => .error (.valueError "not enough values to unpack (expected 2, got 1)")
  | some (before, after) => do
      let start ← timeOf before
      let ending ← timeOf after
      return (start, ending)

/-- `parse_window(raw)`. -/
def parseWindow (repr : String → String) (raw : String) : Except PyException Window :=
  match read raw with
  | .ok window => .ok window
  | .error exc =>
      .error (.valueError s!"Invalid window string {repr raw}: {Executor.strOfException exc}")

/-- The text is refused with a `ValueError`, or its window can be compared with any time. -/
def Usable (repr : String → String) (raw : String) : Prop :=
  (∃ message, parseWindow repr raw = .error (.valueError message)) ∨
    ∃ window, parseWindow repr raw = .ok window ∧
      ∀ utcnow t, ∃ inside, withinWindow utcnow [window] (some t) = .ok inside

/-- Around its first minus sign the text has two times, one of them with a UTC offset. -/
def HasOffset (raw : String) : Prop :=
  ∃ before after start ending, raw.toList = before ++ '-' :: after ∧ '-' ∉ before ∧
    timeOf before = .ok start ∧ timeOf after = .ok ending ∧
      (start.offset.isSome ∨ ending.offset.isSome)

theorem halves_append {before after : List Char} (first : '-' ∉ before) :
    halves (before ++ '-' :: after) = some (before, after) := by
  have front : ∀ c ∈ before, decide (c ≠ '-') = true := by
    intro c member
    simpa using fun same : c = '-' => first (same ▸ member)
  rw [halves, List.dropWhile_append_of_pos front, List.takeWhile_append_of_pos front]
  simp

theorem halves_eq_some {raw before after : List Char} (split_ : halves raw = some (before, after)) :
    raw = before ++ '-' :: after ∧ '-' ∉ before := by
  rw [halves] at split_
  split at split_
  · cases split_
  · rename_i sign rest found
    cases split_
    have stop := List.head_dropWhile_not (· ≠ '-') (l := raw)
      (by rw [found]; exact List.cons_ne_nil _ _)
    simp only [found, List.head_cons] at stop
    have minus : sign = '-' := by simpa using stop
    have whole := List.takeWhile_append_dropWhile (p := (· ≠ '-')) (l := raw)
    rw [found, minus] at whole
    refine ⟨whole.symm, fun member => ?_⟩
    have passed := List.mem_takeWhile_imp member
    simp at passed

theorem read_eq_ok_iff (raw : String) (start ending : Time) :
    read raw = .ok (start, ending) ↔ ∃ before after, raw.toList = before ++ '-' :: after ∧
      '-' ∉ before ∧ timeOf before = .ok start ∧ timeOf after = .ok ending := by
  constructor
  · intro returned
    rw [read] at returned
    split at returned
    · cases returned
    · rename_i before after split_
      obtain ⟨whole, first⟩ := halves_eq_some split_
      obtain ⟨start', readStart, rest⟩ := returned_of_bind returned
      obtain ⟨ending', readEnding, same⟩ := returned_of_bind rest
      cases same
      exact ⟨before, after, whole, first, readStart, readEnding⟩
  · rintro ⟨before, after, whole, first, readStart, readEnding⟩
    rw [read, whole, halves_append first]
    dsimp only
    rw [readStart, readEnding]
    rfl

theorem timeOf_isoformat (clock : Clock) : timeOf clock.isoformat = .ok clock.naive := by
  have back : time? clock.isoformat = some clock.naive := by
    have whole := time?_isoformat clock.naive
    rwa [Time.isoformat, Clock.naive, zoneText, List.append_nil] at whole
  rw [timeOf, strip_isoformat, fromisoformat, String.toList_ofList, back]

/-- **Every pair of naive times** can be written as a window. -/
theorem read_isoformat (start ending : Clock) :
    read (String.ofList (start.isoformat ++ '-' :: ending.isoformat)) =
      .ok (naive (start, ending)) := by
  rw [naive, read_eq_ok_iff, String.toList_ofList]
  refine ⟨start.isoformat, ending.isoformat, rfl, fun member => ?_, timeOf_isoformat start,
    timeOf_isoformat ending⟩
  have noSign := clock?_noSign (clock?_isoformat start) '-' member
  cases noSign

/-- A comparison with an aware time raises, whatever the naive time is. -/
theorem holds_of_offset {start ending : Time}
    (aware : start.offset.isSome ∨ ending.offset.isSome) (checkTime : Clock) :
    Window.holds checkTime.naive (start, ending) = .error Time.incomparable := by
  by_cases both : start.offset.isSome = ending.offset.isSome
  · have startAware : start.offset.isSome := by
      rcases aware with start_ | ending_
      · exact start_
      · rwa [both]
    have raised : start.le checkTime.naive = .error Time.incomparable :=
      Time.le_of_offset (by simp [startAware, Clock.naive])
    obtain ⟨o, first⟩ := Option.isSome_iff_exists.mp startAware
    obtain ⟨o', second⟩ := Option.isSome_iff_exists.mp (both ▸ startAware)
    have compared : ∃ b, start.le ending = .ok b := by
      rw [Time.le, first, second]
      exact ⟨_, rfl⟩
    obtain ⟨b, compared⟩ := compared
    simp only [holds, compared, raised]
    cases b <;> rfl
  · simp only [holds, Time.le_of_offset both]
    rfl

/-- A usable text that is read as a window gives one that can be asked at any time. -/
theorem Usable.answers {repr : String → String} {raw : String} {window : Time × Time}
    (usable : Usable repr raw) (parsed : parseWindow repr raw = .ok window) :
    ∀ utcnow t, ∃ inside, withinWindow utcnow [window] (some t) = .ok inside := by
  rcases usable with ⟨message, refused⟩ | ⟨window', accepted, usable⟩
  · rw [parsed] at refused
    cases refused
  · rw [parsed] at accepted
    cases accepted
    exact usable

/-- **Which accepted texts are usable**: those without a UTC offset. -/
theorem accepted_usable_iff (repr : String → String) (raw : String) :
    Usable repr raw ↔ ¬ HasOffset raw := by
  cases returned : read raw with
  | error exc =>
      have refused : ∃ message, parseWindow repr raw = .error (.valueError message) := by
        rw [parseWindow, returned]
        exact ⟨_, rfl⟩
      refine iff_of_true (.inl refused) ?_
      rintro ⟨before, after, start, ending, whole, first, readStart, readEnding, -⟩
      have accepted := (read_eq_ok_iff raw start ending).mpr
        ⟨before, after, whole, first, readStart, readEnding⟩
      rw [returned] at accepted
      cases accepted
  | ok window =>
      obtain ⟨start, ending⟩ := window
      have parsed : parseWindow repr raw = .ok (start, ending) := by rw [parseWindow, returned]
      obtain ⟨before, after, whole, first, readStart, readEnding⟩ :=
        (read_eq_ok_iff raw start ending).mp returned
      by_cases aware : start.offset.isSome ∨ ending.offset.isSome
      · refine iff_of_false ?_ (not_not_intro
          ⟨before, after, start, ending, whole, first, readStart, readEnding, aware⟩)
        intro usable
        obtain ⟨inside, answered⟩ := usable.answers parsed 0 0
        rw [withinWindow, List.isEmpty_cons, if_neg (by simp), anyHolds,
          holds_of_offset aware] at answered
        cases answered
      · rw [not_or, Option.not_isSome_iff_eq_none, Option.not_isSome_iff_eq_none] at aware
        refine iff_of_true (.inr ⟨(start, ending), parsed, fun utcnow t => ?_⟩) ?_
        · have one := withinWindow_naive utcnow t [(start.clock, ending.clock)]
          rw [List.map_singleton, naive, ← Time.eq_naive aware.1, ← Time.eq_naive aware.2] at one
          exact ⟨_, one⟩
        · rintro ⟨before', after', start', ending', whole', first', readStart', readEnding', aware'⟩
          have accepted := (read_eq_ok_iff raw start' ending').mpr
            ⟨before', after', whole', first', readStart', readEnding'⟩
          rw [returned] at accepted
          cases accepted
          simp [aware] at aware'

/-- The end of the window is at eighteen hours UTC. -/
theorem utcSuffix_unusable :
    ¬ Usable (fun text => "'" ++ text ++ "'") "08:00-18:00+00:00" := by
  have parsed : parseWindow (fun text => "'" ++ text ++ "'") "08:00-18:00+00:00" =
      .ok ((Clock.of (seconds 28800)).naive,
        { clock := .of (seconds 64800), offset := some 0, offset_lt := by decide }) := by
    decide +kernel
  intro usable
  obtain ⟨inside, answered⟩ := usable.answers parsed 0 0
  cases answered

end Window

end Cronwatch.Jobs
