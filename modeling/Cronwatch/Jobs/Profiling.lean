/-
# Jobs.Profiling -- duration statistics of a job

`DurationStats` holds the durations of one job, in seconds; a report has a row of its
statistics, and calls a job slow when its `p95` is over a threshold.  The samples are exact
numbers, and so is the product in the rank of `p95`.

The rank is rounded down.  `p95_percentile_iff`: at least 95 percent of the samples are
within `p95` exactly when the rank rounded up has the same sample.
-/
import Cronwatch.Theory.OrderStatistics
import Mathlib.Algebra.Order.Ring.Rat

namespace Cronwatch.Jobs

set_option autoImplicit false

open Cronwatch.Theory

structure DurationStats where
  jobName : String
  samples : List ℚ := []

namespace DurationStats

def count (stats : DurationStats) : Nat := stats.samples.length

def mean (stats : DurationStats) : Option ℚ :=
  if stats.samples = [] then none else some (stats.samples.sum / stats.samples.length)

def minimum (stats : DurationStats) : Option ℚ := stats.samples.min?

def maximum (stats : DurationStats) : Option ℚ := stats.samples.max?

/-- `max(0, int(n * 0.95) - 1)`. -/
def p95Index (n : Nat) : Nat := (max 0 (((n * 95 / 100 : Nat) : Int) - 1)).toNat

def p95 (stats : DurationStats) : Option ℚ :=
  if stats.samples = [] then none else nth stats.samples (p95Index stats.samples.length)

end DurationStats

structure ProfilingReportRow where
  jobName : String
  count : Nat
  mean : Option ℚ
  minimum : Option ℚ
  maximum : Option ℚ
  p95 : Option ℚ

/-- `p95` is over the threshold. -/
def ProfilingReportRow.isSlow (thresholdSeconds : ℚ) (row : ProfilingReportRow) : Bool :=
  match row.p95 with
  | none => false
  | some p95 => thresholdSeconds < p95

structure ProfilingReport where
  rows : List ProfilingReportRow

def ProfilingReport.slowJobs (thresholdSeconds : ℚ) (report : ProfilingReport) :
    List ProfilingReportRow :=
  report.rows.filter (ProfilingReportRow.isSlow thresholdSeconds)

namespace DurationStats

/-- `_row_from_stats`. -/
def row (stats : DurationStats) : ProfilingReportRow where
  jobName := stats.jobName
  count := stats.count
  mean := stats.mean
  minimum := stats.minimum
  maximum := stats.maximum
  p95 := stats.p95

/-- The index of the rank when it is rounded down. -/
def lowerIndex (n : Nat) : Nat := n * 95 / 100 - 1

/-- The index of the rank when it is rounded up. -/
def upperIndex (n : Nat) : Nat := (n * 95 + 99) / 100 - 1

theorem p95Index_eq (n : Nat) : p95Index n = lowerIndex n := by
  rw [p95Index, lowerIndex]
  omega

theorem lowerIndex_le_upperIndex (n : Nat) : lowerIndex n ≤ upperIndex n := by
  rw [lowerIndex, upperIndex]
  omega

theorem upperIndex_lt {n : Nat} (positive : 0 < n) : upperIndex n < n := by
  rw [upperIndex]
  omega

/-- 95 percent of `n` is reached with the rank that is rounded up. -/
theorem share_iff {n : Nat} (positive : 0 < n) (count : Nat) :
    95 * n ≤ 100 * count ↔ upperIndex n < count := by
  rw [upperIndex]
  omega

/-- **A 95th percentile**: a sample with at least 95 percent of the samples within it, so
that a job with more than 5 percent over a threshold is slow. -/
structure Percentile (stats : DurationStats) (p : ℚ) : Prop where
  sample : p ∈ stats.samples
  share : 95 * stats.samples.length ≤ 100 * stats.samples.countP (· ≤ p)
  slow : ∀ threshold, 5 * stats.samples.length < 100 * stats.samples.countP (threshold < ·) →
    stats.row.isSlow threshold = true

variable {stats : DurationStats}

/-- The two order statistics that the rank lies between. -/
theorem exists_ranks (nonempty : stats.samples ≠ []) :
    ∃ p x, stats.p95 = some p ∧ nth stats.samples (lowerIndex stats.samples.length) = some p ∧
      nth stats.samples (upperIndex stats.samples.length) = some x := by
  have positive := List.length_pos_iff.mpr nonempty
  have high := upperIndex_lt positive
  have low := (lowerIndex_le_upperIndex stats.samples.length).trans_lt high
  obtain ⟨p, atLow⟩ := Option.isSome_iff_exists.mp ((nth_isSome_iff _ _).mpr low)
  obtain ⟨x, atHigh⟩ := Option.isSome_iff_exists.mp ((nth_isSome_iff _ _).mpr high)
  refine ⟨p, x, ?_, atLow, atHigh⟩
  rw [p95, if_neg nonempty, p95Index_eq, atLow]

/-- Where 95 percent of the samples are within `p95`, no more than 5 percent are over it. -/
theorem slow_of_share {p : ℚ} (is : stats.p95 = some p)
    (share : 95 * stats.samples.length ≤ 100 * stats.samples.countP (· ≤ p)) (threshold : ℚ)
    (many : 5 * stats.samples.length < 100 * stats.samples.countP (threshold < ·)) :
    stats.row.isSlow threshold = true := by
  rw [ProfilingReportRow.isSlow, row]
  simp only [is, decide_eq_true_eq]
  by_contra within
  have fewer : stats.samples.countP (threshold < ·) ≤ stats.samples.countP (p < ·) := by
    refine List.countP_mono_left fun x _ over_ => ?_
    simp only [decide_eq_true_eq] at over_ ⊢
    exact (not_lt.mp within).trans_lt over_
  have whole := stats.samples.length_eq_countP_add_countP (· ≤ p)
  simp only [decide_eq_true_eq, not_le] at whole
  omega

/-- **When `p95` is a 95th percentile**: when the ranks rounded down and up have the same
sample. -/
theorem p95_percentile_iff (nonempty : stats.samples ≠ []) :
    (∃ p, stats.p95 = some p ∧ stats.Percentile p) ↔
      nth stats.samples (lowerIndex stats.samples.length) =
        nth stats.samples (upperIndex stats.samples.length) := by
  have positive := List.length_pos_iff.mpr nonempty
  obtain ⟨p, x, is, atLow, atHigh⟩ := exists_ranks nonempty
  have le := nth_mono (lowerIndex_le_upperIndex _) atLow atHigh
  have shares := share_iff positive (stats.samples.countP (· ≤ p))
  rw [← nth_le_iff atHigh p] at shares
  rw [atLow, atHigh, Option.some.injEq]
  constructor
  · rintro ⟨p', is', percentile⟩
    rw [is] at is'
    cases is'
    exact le_antisymm le (shares.mp percentile.share)
  · rintro rfl
    have share := shares.mpr le_rfl
    exact ⟨p, is, mem_of_nth atLow, share, slow_of_share is share⟩

theorem percentile_three :
    ∃ p, DurationStats.p95 { jobName := "backup", samples := [2, 3, 3] } = some p ∧
      Percentile { jobName := "backup", samples := [2, 3, 3] } p :=
  (p95_percentile_iff (by decide)).mpr (by decide +kernel)

/-- Of two samples `p95` is the smaller one. -/
theorem half_over_p95 :
    ¬ ∃ p, DurationStats.p95 { jobName := "backup", samples := [1, 9] } = some p ∧
      Percentile { jobName := "backup", samples := [1, 9] } p := by
  rintro ⟨p, is, percentile⟩
  have smaller : DurationStats.p95 { jobName := "backup", samples := [1, 9] } = some 1 := by
    decide +kernel
  rw [smaller] at is
  cases is
  exact absurd percentile.share (by decide +kernel)

/-- **With distinct samples** `p95` is a 95th percentile of one sample, and of multiples of
twenty. -/
theorem distinct_percentile_iff (nonempty : stats.samples ≠ []) (distinct : stats.samples.Nodup) :
    nth stats.samples (lowerIndex stats.samples.length) =
        nth stats.samples (upperIndex stats.samples.length) ↔
      stats.samples.length = 1 ∨ 20 ∣ stats.samples.length := by
  have positive := List.length_pos_iff.mpr nonempty
  have high := upperIndex_lt positive
  rw [nth_inj distinct ((lowerIndex_le_upperIndex _).trans_lt high) high, lowerIndex, upperIndex]
  omega

end DurationStats

end Cronwatch.Jobs
