/-
# Theory.SlidingWindow -- counting events in a window by pruning a queue

A queue of time stamps that is pruned only at its head, and only by cutoffs
`now - window` at times that never go back, is a suffix of everything that was ever
recorded, and what was dropped is older than every window still to come.  So pruning
at `now` leaves exactly the history inside the window (`SuffixAt.evictBefore_eq`),
although the history itself is not kept.

A list that is filtered instead may hold its time stamps in any order, and be pruned at
any moment: what it holds from the last cutoff on is what the history does (`AgreeFrom`).

`AtMost` bounds the count in EVERY closed interval of the window's length, wherever
it lies; `AtMost.append` is what one more event needs.
-/
import Mathlib.Algebra.Order.Group.Defs
import Mathlib.Data.List.Pairwise
import Mathlib.Data.List.Perm.Subperm

namespace Cronwatch.Theory

set_option autoImplicit false

universe u

variable {α : Type u} [LinearOrder α]

/-- Drop the head while it is older than the cutoff. -/
def evictBefore (cutoff : α) : List α → List α
  | [] => []
  | x :: rest => if x < cutoff then evictBefore cutoff rest else x :: rest

/-- How many events lie in the closed interval. -/
def countIn (lo hi : α) (events : List α) : Nat := events.countP fun x => lo ≤ x ∧ x ≤ hi

theorem evictBefore_eq_filter (cutoff : α) (events : List α) (sorted : events.Pairwise (· ≤ ·)) :
    evictBefore cutoff events = events.filter fun x => cutoff ≤ x := by
  induction events with
  | nil => rfl
  | cons x rest ih =>
      obtain ⟨first, sortedRest⟩ := List.pairwise_cons.mp sorted
      by_cases old : x < cutoff
      · rw [evictBefore, if_pos old, ih sortedRest, List.filter_cons_of_neg (by simpa using old)]
      · have inside : ∀ y ∈ x :: rest, cutoff ≤ y := by
          intro y member
          rcases List.mem_cons.mp member with rfl | later
          · exact not_lt.mp old
          · exact (not_lt.mp old).trans (first y later)
        rw [evictBefore, if_neg old]
        exact (List.filter_eq_self.mpr (by simpa using inside)).symm

theorem evictBefore_suffix (cutoff : α) (events : List α) :
    ∃ gone, events = gone ++ evictBefore cutoff events ∧ ∀ x ∈ gone, x < cutoff := by
  induction events with
  | nil => exact ⟨[], rfl, by simp⟩
  | cons x rest ih =>
      by_cases old : x < cutoff
      · obtain ⟨gone, split, older⟩ := ih
        refine ⟨x :: gone, ?_, ?_⟩
        · rw [evictBefore, if_pos old, List.cons_append, ← split]
        · exact List.forall_mem_cons.mpr ⟨old, older⟩
      · exact ⟨[], by rw [evictBefore, if_neg old, List.nil_append], by simp⟩

/-- A change of units does not change the count. -/
theorem countIn_map {β : Type u} [LinearOrder β] {f : α → β} (strict : StrictMono f) (lo hi : α)
    (events : List α) : countIn (f lo) (f hi) (events.map f) = countIn lo hi events := by
  rw [countIn, countIn, List.countP_map]
  congr 1
  funext x
  simp [strict.le_iff_le]

/-! ## Pruning by a filter -/

/-- From the cutoff on, the list holds what the history does. -/
def AgreeFrom (cutoff : α) (history kept : List α) : Prop :=
  kept.filter (fun x => cutoff ≤ x) = history.filter fun x => cutoff ≤ x

theorem filter_filter_of_le {cutoff later : α} (le : cutoff ≤ later) (events : List α) :
    (events.filter fun x => cutoff ≤ x).filter (fun x => later ≤ x) =
      events.filter fun x => later ≤ x := by
  rw [List.filter_filter]
  refine List.filter_congr fun x _ => ?_
  by_cases inside : later ≤ x
  · simp [inside, le.trans inside]
  · simp [inside]

namespace AgreeFrom

variable {cutoff later : α} {history kept : List α}

theorem refl (cutoff : α) (history : List α) : AgreeFrom cutoff history history := rfl

theorem mono (agree : AgreeFrom cutoff history kept) (le : cutoff ≤ later) :
    AgreeFrom later history kept := by
  rw [AgreeFrom, ← filter_filter_of_le le, agree, filter_filter_of_le le]

theorem append (agree : AgreeFrom cutoff history kept) (events : List α) :
    AgreeFrom cutoff (history ++ events) (kept ++ events) := by
  rw [AgreeFrom, List.filter_append, List.filter_append, agree]

theorem prune (agree : AgreeFrom cutoff history kept) (le : cutoff ≤ later) :
    AgreeFrom later history (kept.filter fun x => later ≤ x) := by
  rw [AgreeFrom, filter_filter_of_le le_rfl]
  exact agree.mono le

/-- What is left after pruning is what the history has in the window. -/
theorem length_prune (agree : AgreeFrom cutoff history kept) (le : cutoff ≤ later) {now : α}
    (past : ∀ x ∈ history, x ≤ now) :
    (kept.filter fun x => later ≤ x).length = countIn later now history := by
  rw [agree.mono le, countIn, List.countP_eq_length_filter]
  congr 1
  refine List.filter_congr fun x member => ?_
  simp [past x member]

end AgreeFrom

/-! ## Pruning at the head -/

variable [AddCommGroup α]

/-- At time `now` the queue is a suffix of the history, and the rest of it is out of
the window. -/
structure SuffixAt (window now : α) (history queue : List α) : Prop where
  sorted : history.Pairwise (· ≤ ·)
  past : ∀ x ∈ history, x ≤ now
  suffix : ∃ gone, history = gone ++ queue ∧ ∀ x ∈ gone, x < now - window

/-- No closed interval of length `window` holds more than `limit` events. -/
def AtMost (window : α) (limit : Int) (history : List α) : Prop :=
  ∀ start, (countIn start (start + window) history : Int) ≤ limit

theorem atMost_nil {window : α} {limit : Int} (nonneg : 0 ≤ limit) :
    AtMost window limit ([] : List α) := by
  intro start
  simpa [countIn] using nonneg

/-- Fewer events, in any order. -/
theorem AtMost.subperm {window : α} {limit : Int} {history fewer : List α}
    (bounded : AtMost window limit history) (sub : fewer.Subperm history) :
    AtMost window limit fewer := by
  intro start
  have most := bounded start
  have counted : countIn start (start + window) fewer ≤ countIn start (start + window) history :=
    sub.countP_le _
  omega

namespace SuffixAt

variable {window now later : α} {history queue : List α}

theorem nil (window now : α) : SuffixAt window now [] [] where
  sorted := List.Pairwise.nil
  past := by simp
  suffix := ⟨[], rfl, by simp⟩

/-- Recording at the current time. -/
theorem append (tracks : SuffixAt window now history queue) :
    SuffixAt window now (history ++ [now]) (queue ++ [now]) where
  sorted := List.pairwise_append.mpr ⟨tracks.sorted, List.pairwise_singleton _ _, by
    intro x member y last
    rw [List.mem_singleton.mp last]
    exact tracks.past x member⟩
  past := by
    intro x member
    rcases List.mem_append.mp member with old | last
    · exact tracks.past x old
    · exact (List.mem_singleton.mp last).le
  suffix := by
    obtain ⟨gone, split, older⟩ := tracks.suffix
    exact ⟨gone, by rw [split, List.append_assoc], older⟩

variable [IsOrderedAddMonoid α]

theorem mono (tracks : SuffixAt window now history queue) (le : now ≤ later) :
    SuffixAt window later history queue where
  sorted := tracks.sorted
  past := fun x member => (tracks.past x member).trans le
  suffix := by
    obtain ⟨gone, split, older⟩ := tracks.suffix
    exact ⟨gone, split, fun x member => (older x member).trans_le (sub_le_sub_right le window)⟩

theorem evict (tracks : SuffixAt window now history queue) (le : now ≤ later) :
    SuffixAt window later history (evictBefore (later - window) queue) where
  sorted := tracks.sorted
  past := (tracks.mono le).past
  suffix := by
    obtain ⟨gone, split, older⟩ := (tracks.mono le).suffix
    obtain ⟨pruned, splitQueue, olderQueue⟩ := evictBefore_suffix (later - window) queue
    refine ⟨gone ++ pruned, ?_, ?_⟩
    · rw [List.append_assoc, ← splitQueue]
      exact split
    · intro x member
      rcases List.mem_append.mp member with before | here
      · exact older x before
      · exact olderQueue x here

/-- **What pruning leaves** is the part of the history inside the window. -/
theorem evictBefore_eq (tracks : SuffixAt window now history queue) (le : now ≤ later) :
    evictBefore (later - window) queue = history.filter fun x => later - window ≤ x := by
  obtain ⟨gone, split, older⟩ := (tracks.mono le).suffix
  have sortedQueue : queue.Pairwise (· ≤ ·) :=
    tracks.sorted.sublist (split ▸ List.sublist_append_right gone queue)
  have dropped : gone.filter (fun x => later - window ≤ x) = [] :=
    List.filter_eq_nil_iff.mpr fun x member => by
      simpa only [decide_eq_true_eq, not_le] using older x member
  rw [evictBefore_eq_filter _ _ sortedQueue, split, List.filter_append, dropped, List.nil_append]

theorem length_evictBefore (tracks : SuffixAt window now history queue) (le : now ≤ later) :
    (evictBefore (later - window) queue).length = countIn (later - window) later history := by
  rw [tracks.evictBefore_eq le, countIn, List.countP_eq_length_filter]
  congr 1
  refine List.filter_congr fun x member => ?_
  simp [(tracks.past x member).trans le]

end SuffixAt

variable [IsOrderedAddMonoid α]

/-- **One more event**, at `now`, when the window that ended at an earlier reading was
not full. -/
theorem AtMost.append {window : α} {limit : Int} {history : List α}
    (bounded : AtMost window limit history) {reading now : α} (le : reading ≤ now)
    (past : ∀ x ∈ history, x ≤ reading)
    (room : (countIn (reading - window) reading history : Int) < limit) :
    AtMost window limit (history ++ [now]) := by
  intro start
  by_cases inside : start ≤ now ∧ now ≤ start + window
  · -- everything in the interval was already in the window of the reading
    have subset : countIn start (start + window) history ≤
        countIn (reading - window) reading history := by
      refine List.countP_mono_left fun x member found => ?_
      simp only [decide_eq_true_eq] at found ⊢
      refine ⟨?_, past x member⟩
      calc reading - window ≤ now - window := sub_le_sub_right le window
        _ ≤ start := sub_le_iff_le_add.mpr inside.2
        _ ≤ x := found.1
    have counted : countIn start (start + window) (history ++ [now]) =
        countIn start (start + window) history + 1 := by
      simp [countIn, List.countP_append, inside]
    rw [counted]
    omega
  · have counted : countIn start (start + window) (history ++ [now]) =
        countIn start (start + window) history := by
      simp only [countIn, List.countP_append, List.countP_singleton]
      simp [inside]
    rw [counted]
    exact bounded start

/-- **When one more event fits**: exactly when its own window has room. -/
theorem atMost_append_iff {window : α} (nonneg : 0 ≤ window) (limit : Int) {history : List α}
    {now : α} (past : ∀ x ∈ history, x ≤ now) :
    AtMost window limit (history ++ [now]) ↔
      AtMost window limit history ∧ (countIn (now - window) now history : Int) < limit := by
  refine ⟨fun bounded => ⟨fun start => ?_, ?_⟩, fun both => both.1.append le_rfl past both.2⟩
  · have fewer : countIn start (start + window) history ≤
        countIn start (start + window) (history ++ [now]) := by
      rw [countIn, countIn, List.countP_append]
      omega
    have most := bounded start
    omega
  · have counted : countIn (now - window) now (history ++ [now]) =
        countIn (now - window) now history + 1 := by
      simp [countIn, List.countP_append, nonneg]
    have most := bounded (now - window)
    rw [sub_add_cancel, counted] at most
    omega

end Cronwatch.Theory
