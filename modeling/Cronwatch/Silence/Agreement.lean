/-
# Silence.Agreement -- the three stores of timed silence answer alike

One history of operations (`Op`) is carried out on a `MuteStore`, a `SuppressionStore`
and a `PauseStore`.  They drop an entry that is over never, on a purge, and on a query,
and they keep their entries in a file, in a file as text, and in memory with a file
behind it.  A purge concerns the second one; each can be thrown away and opened again
from its file at any point.

`Silenced` is what they all mean: the most recent set or clear of the job is a set
whose end has not come.  `stores_agree` holds as long as queries and purges come in
order of time; what a store has dropped was over then and is over now.
-/
import Cronwatch.Silence.Mute
import Cronwatch.Silence.Pause
import Cronwatch.Silence.Suppression
import Mathlib.Logic.Equiv.Nat

namespace Cronwatch.Silence

set_option autoImplicit false

open Cronwatch.Theory Cronwatch.Theory.ExpiringMap Cronwatch.Runtime

inductive StoreName where
  | mute
  | suppression
  | pause
deriving DecidableEq

/-- An operation on all three stores, a purge, or one store opened again.  `at_` is the
clock where an entry is made. -/
inductive Op where
  | set (jobName : String) (until_ : Option DateTime) (reason : String) (at_ : DateTime)
  | clear (jobName : String)
  | query (jobName : String) (now : DateTime)
  | purge (now : DateTime)
  | reopen (store : StoreName)
deriving DecidableEq

def Op.time? : Op → Option DateTime
  | .query _ now | .purge now => some now
  | .set _ _ _ _ | .clear _ | .reopen _ => none

/-- What the operation leaves for the job: an end, or no entry; `none` when it writes
nothing for it. -/
def Op.writes? (jobName : String) : Op → Option (Option (Option DateTime))
  | .set job until_ _ _ => if job = jobName then some (some until_) else none
  | .clear job => if job = jobName then some none else none
  | .query _ _ | .purge _ | .reopen _ => none

/-- The most recent set or clear of the job is a set whose end has not come. -/
def Silenced (ops : List Op) (jobName : String) (now : DateTime) : Prop :=
  ∃ ending, ops.reverse.findSome? (Op.writes? jobName) = some (some ending) ∧ Open ending now

/-- Queries and purges come in order of time. -/
def Nondecreasing (ops : List Op) : Prop := (ops.filterMap Op.time?).Pairwise (· ≤ ·)

structure Stores where
  mute : MuteStore := {}
  suppression : SuppressionStore := {}
  pause : PauseStore := {}

namespace Stores

variable (iso : IsoFormat)

def set (jobName : String) (until_ : Option DateTime) (reason : String) (at_ : DateTime)
    (s : Stores) : Except PyException Stores :=
  match s.mute.mute iso { jobName, mutedAt := at_, mutedUntil := until_, reason } with
  | .error e => .error e
  | .ok mute =>
      .ok { mute
            suppression := (s.suppression.suppress iso jobName reason until_ at_).2
            pause := (s.pause.pause iso at_ jobName (some reason) until_).2 }

def clear (jobName : String) (s : Stores) : Except PyException Stores :=
  match s.mute.unmute iso jobName with
  | .error e => .error e
  | .ok mute =>
      .ok { mute
            suppression := (s.suppression.release jobName).2
            pause := (s.pause.resume iso jobName).2 }

/-- The answers of the three stores. -/
structure Answers where
  muted : Bool
  suppressed : Bool
  paused : Bool

def query (jobName : String) (now : DateTime) (s : Stores) : Except PyException (Answers × Stores) :=
  match s.mute.isMuted iso jobName now with
  | .error e => .error e
  | .ok muted =>
      match s.suppression.isSuppressed iso jobName now with
      | .error e => .error e
      | .ok suppressed =>
          .ok (⟨muted, suppressed, (s.pause.isPaused iso jobName now).1⟩,
            { s with pause := (s.pause.isPaused iso jobName now).2 })

def purge (now : DateTime) (s : Stores) : Except PyException Stores :=
  match s.suppression.purgeExpired iso now with
  | .error e => .error e
  | .ok (_, suppression) => .ok { s with suppression }

/-- The object is made anew; only a `PauseStore` holds more than its path. -/
def reopen (store : StoreName) (s : Stores) : Except PyException Stores :=
  match store with
  | .mute => .ok { s with mute := { file := s.mute.file } }
  | .suppression => .ok { s with suppression := { file := s.suppression.file } }
  | .pause => (PauseStore.load iso s.pause.file).map fun pause => { s with pause }

def step (s : Stores) : Op → Except PyException Stores
  | .set jobName until_ reason at_ => s.set iso jobName until_ reason at_
  | .clear jobName => s.clear iso jobName
  | .query jobName now => (s.query iso jobName now).map Prod.snd
  | .purge now => s.purge iso now
  | .reopen store => s.reopen iso store

def run : List Op → Stores → Except PyException Stores
  | [], s => .ok s
  | op :: rest, s =>
      match s.step iso op with
      | .error e => .error e
      | .ok s => run rest s

end Stores

/-! ## The abstract map -/

/-- The ends of the entries that no store would ever drop. -/
def apply (m : String → Option (Option DateTime)) : Op → String → Option (Option DateTime)
  | .set jobName until_ _ _ => Function.update m jobName (some until_)
  | .clear jobName => Function.update m jobName none
  | .query _ _ | .purge _ | .reopen _ => m

def ends (ops : List Op) : String → Option (Option DateTime) := ops.foldl apply fun _ => none

theorem apply_eq (m : String → Option (Option DateTime)) (op : Op) (jobName : String) :
    apply m op jobName = (op.writes? jobName).getD (m jobName) := by
  cases op with
  | set job until_ reason at_ =>
      by_cases same : job = jobName
      · subst same
        simp [apply, Op.writes?]
      · simp [apply, Op.writes?, same, Function.update_of_ne (Ne.symm same)]
  | clear job =>
      by_cases same : job = jobName
      · subst same
        simp [apply, Op.writes?]
      · simp [apply, Op.writes?, same, Function.update_of_ne (Ne.symm same)]
  | query job now => rfl
  | purge now => rfl
  | reopen store => rfl

theorem ends_eq (ops : List Op) (jobName : String) :
    ends ops jobName = (ops.reverse.findSome? (Op.writes? jobName)).join := by
  induction ops using List.reverseRecOn with
  | nil => rfl
  | append_singleton before op ih =>
      rw [ends, List.foldl_append, ← ends]
      show apply (ends before) op jobName = _
      rw [apply_eq, ih, List.reverse_append, List.reverse_singleton, List.singleton_append,
        List.findSome?_cons]
      cases op.writes? jobName <;> rfl

theorem silenced_iff (ops : List Op) (jobName : String) (now : DateTime) :
    Silenced ops jobName now ↔ Holds (ends ops) jobName now := by
  unfold Silenced Holds
  rw [ends_eq]
  cases ops.reverse.findSome? (Op.writes? jobName) with
  | none => simp
  | some written => cases written <;> simp

/-! ## One operation, and a run -/

/-- All three stores keep what holds of `m` from now on. -/
structure Tracks (iso : IsoFormat) (now : DateTime) (m : String → Option (Option DateTime))
    (s : Stores) : Prop where
  mute : s.mute.Keeps iso m
  suppression : s.suppression.Keeps iso now m
  pause : s.pause.Keeps iso now m

namespace Tracks

variable {iso : IsoFormat} {now later : DateTime} {m : String → Option (Option DateTime)} {s : Stores}

theorem start (iso : IsoFormat) (now : DateTime) : Tracks iso now (fun _ => none) {} where
  mute := .empty
  suppression := .empty iso now
  pause := .empty iso now

theorem wait (tracks : Tracks iso now m s) (le : now ≤ later) : Tracks iso later m s where
  mute := tracks.mute
  suppression := tracks.suppression.wait le
  pause := tracks.pause.wait le

/-- **A query** has one answer, from all three stores. -/
theorem query (tracks : Tracks iso now m s) (jobName : String) :
    ∃ answers s', s.query iso jobName now = .ok (answers, s') ∧ Tracks iso now m s' ∧
      (answers.muted = true ↔ Holds m jobName now) ∧
      (answers.suppressed = true ↔ Holds m jobName now) ∧
      (answers.paused = true ↔ Holds m jobName now) := by
  obtain ⟨muted, answered, muteSpec⟩ := tracks.mute.isMuted jobName now
  obtain ⟨suppressed, answered', suppressionSpec⟩ := tracks.suppression.isSuppressed jobName
  obtain ⟨pauseSpec, pause⟩ := tracks.pause.isPaused jobName
  rw [Stores.query, answered, answered']
  exact ⟨_, _, rfl, ⟨tracks.mute, tracks.suppression, pause⟩, muteSpec, suppressionSpec, pauseSpec⟩

/-- **One operation**; `now` is its time, when it has one. -/
theorem step (tracks : Tracks iso now m s) (op : Op) (time : ∀ t ∈ op.time?, t = now) :
    ∃ s', s.step iso op = .ok s' ∧ Tracks iso now (apply m op) s' := by
  cases op with
  | set jobName until_ reason at_ =>
      obtain ⟨mute, done, keeps⟩ :=
        tracks.mute.mute { jobName, mutedAt := at_, mutedUntil := until_, reason }
      rw [Stores.step, Stores.set, done]
      exact ⟨_, rfl, keeps, tracks.suppression.suppress jobName reason until_ at_,
        tracks.pause.pause at_ jobName (some reason) until_⟩
  | clear jobName =>
      obtain ⟨mute, done, keeps⟩ := tracks.mute.unmute jobName
      rw [Stores.step, Stores.clear, done]
      exact ⟨_, rfl, keeps, tracks.suppression.release jobName, tracks.pause.resume jobName⟩
  | query jobName t =>
      obtain rfl := time t rfl
      obtain ⟨answers, s', answered, kept, -⟩ := tracks.query jobName
      refine ⟨s', ?_, kept⟩
      rw [Stores.step, answered]
      rfl
  | purge t =>
      obtain rfl := time t rfl
      obtain ⟨n, suppression, done, keeps⟩ := tracks.suppression.purgeExpired
      rw [Stores.step, Stores.purge, done]
      exact ⟨_, rfl, tracks.mute, keeps, tracks.pause⟩
  | reopen store =>
      cases store with
      | mute => exact ⟨s, rfl, tracks⟩
      | suppression => exact ⟨s, rfl, tracks⟩
      | pause =>
          refine ⟨s, ?_, tracks⟩
          rw [Stores.step, Stores.reopen, tracks.pause.load]
          rfl

/-- **Any number of operations**, the timed ones in order of time from `now` on. -/
theorem run (tracks : Tracks iso now m s) {ops : List Op}
    (ordered : (now :: ops.filterMap Op.time?).Pairwise (· ≤ ·)) :
    ∃ last s', Stores.run iso ops s = .ok s' ∧ Tracks iso last (ops.foldl apply m) s' ∧
      ∀ later, (∀ t ∈ now :: ops.filterMap Op.time?, t ≤ later) → last ≤ later := by
  induction ops generalizing now m s with
  | nil => exact ⟨now, s, rfl, tracks, fun later bound => bound now List.mem_cons_self⟩
  | cons op rest ih =>
      cases timed : op.time? with
      | none =>
          rw [List.filterMap_cons_none timed] at ordered ⊢
          obtain ⟨s₁, stepped, kept⟩ := tracks.step op (by simp [timed])
          obtain ⟨last, s₂, ran, kept₂, bound⟩ := ih kept ordered
          refine ⟨last, s₂, ?_, kept₂, bound⟩
          rw [Stores.run, stepped]
          exact ran
      | some t =>
          rw [List.filterMap_cons_some timed] at ordered ⊢
          obtain ⟨first, orderedRest⟩ := List.pairwise_cons.mp ordered
          have le : now ≤ t := first t List.mem_cons_self
          obtain ⟨s₁, stepped, kept⟩ := (tracks.wait le).step op (by simp [timed])
          obtain ⟨last, s₂, ran, kept₂, bound⟩ := ih kept orderedRest
          refine ⟨last, s₂, ?_, kept₂, fun later all => bound later fun t' member => all t'
            (List.mem_cons_of_mem now member)⟩
          rw [Stores.run, stepped]
          exact ran

end Tracks

/-- **The three stores agree.**  With queries and purges in order of time, every history
runs, and at each query the answer of all three is whether the job is silenced. -/
theorem stores_agree (iso : IsoFormat) {ops : List Op} (ordered : Nondecreasing ops) :
    (∃ s, Stores.run iso ops {} = .ok s) ∧
      ∀ before jobName now after, ops = before ++ .query jobName now :: after →
        ∃ s answers s', Stores.run iso before {} = .ok s ∧
          s.query iso jobName now = .ok (answers, s') ∧
          (answers.muted = true ↔ Silenced before jobName now) ∧
          (answers.suppressed = true ↔ Silenced before jobName now) ∧
          (answers.paused = true ↔ Silenced before jobName now) := by
  have anyStart : ∀ {ops : List Op}, Nondecreasing ops →
      ∃ start, (start :: ops.filterMap Op.time?).Pairwise (· ≤ ·) := by
    intro ops ordered
    cases times : ops.filterMap Op.time? with
    | nil => exact ⟨0, List.pairwise_singleton _ _⟩
    | cons t rest =>
        unfold Nondecreasing at ordered
        rw [times] at ordered
        refine ⟨t, List.pairwise_cons.mpr ⟨fun t' member => ?_, ordered⟩⟩
        rcases List.mem_cons.mp member with rfl | later
        · exact le_rfl
        · exact (List.pairwise_cons.mp ordered).1 t' later
  constructor
  · obtain ⟨start, orderedFrom⟩ := anyStart ordered
    obtain ⟨-, s, ran, -⟩ := (Tracks.start iso start).run orderedFrom
    exact ⟨s, ran⟩
  · rintro before jobName now after rfl
    obtain ⟨start, orderedFrom⟩ := anyStart ordered
    rw [List.filterMap_append, List.filterMap_cons_some (show (Op.query jobName now).time? = some now
      from rfl)] at orderedFrom
    obtain ⟨early, -, cross⟩ := List.pairwise_append.mp
      (show ((start :: before.filterMap Op.time?) ++ now :: after.filterMap Op.time?).Pairwise (· ≤ ·)
        from orderedFrom)
    obtain ⟨last, s, ran, tracks, bound⟩ := (Tracks.start iso start).run early
    have le : last ≤ now := bound now fun t member => cross t member now List.mem_cons_self
    obtain ⟨answers, s', answered, -, muted, suppressed, paused⟩ := (tracks.wait le).query jobName
    have same := silenced_iff before jobName now
    exact ⟨s, answers, s', ran, answered, muted.trans same.symm, suppressed.trans same.symm,
      paused.trans same.symm⟩

/-- A format that writes the two times below as they are written, and any other as a
number. -/
def firstMinute : IsoFormat where
  isoformat := fun t =>
    if t = 0 then "1970-01-01T00:00:00+00:00"
    else if t = seconds 10 then "1970-01-01T00:00:10+00:00"
    else strOf (Equiv.intEquivNat t)
  fromisoformat := fun text =>
    if text = "1970-01-01T00:00:00+00:00" then .ok 0
    else if text = "1970-01-01T00:00:10+00:00" then .ok (seconds 10)
    else
      match intOf text with
      | some n => .ok (Equiv.intEquivNat.symm n.toNat)
      | none => .error (.valueError "Invalid isoformat string")
  roundTrip := by
    intro t
    have noDash : ∀ (n : Nat) (text : String), '-' ∈ text.toList → strOf n ≠ text := by
      rintro n text dash rfl
      exact absurd (isDigit_of_mem_strOf n '-' dash) (by decide)
    by_cases zero : t = 0
    · subst zero
      decide
    · by_cases ten : t = seconds 10
      · subst ten
        decide
      · simp only [zero, ten, if_false]
        rw [if_neg (noDash _ _ (by decide)), if_neg (noDash _ _ (by decide)), intOf_strOf]
        simp
  nonempty := by
    intro t
    split
    · decide
    · split
      · decide
      · rw [strOf, ne_eq, String.ofList_eq_empty_iff]
        exact Nat.toDigits_ne_nil

/-- Silenced until ten seconds past, purged and opened again before that. -/
def maintenance : List Op :=
  [.set "backup" (some (seconds 10)) "maintenance" 0, .purge (seconds 5), .reopen .pause]

theorem maintenance_silences : ∃ s answers s', Stores.run firstMinute maintenance {} = .ok s ∧
    s.query firstMinute "backup" (seconds 9) = .ok (answers, s') ∧
      answers.muted = true ∧ answers.suppressed = true ∧ answers.paused = true := by
  have ordered : Nondecreasing (maintenance ++ [.query "backup" (seconds 9)]) := by
    unfold Nondecreasing
    decide
  obtain ⟨s, answers, s', ran, answered, muted, suppressed, paused⟩ :=
    (stores_agree firstMinute ordered).2 maintenance "backup" (seconds 9) [] rfl
  have silenced : Silenced maintenance "backup" (seconds 9) :=
    ⟨some (seconds 10), by decide, by decide⟩
  exact ⟨s, answers, s', ran, answered, muted.mpr silenced, suppressed.mpr silenced,
    paused.mpr silenced⟩

end Cronwatch.Silence
