/-
# Jobs.Output -- what a job printed, kept within a limit

`truncate` cuts the UTF-8 of a text behind `max_bytes` bytes and reads the rest back with
`errors="replace"`.  A character that the cut goes through comes back as U+FFFD, which has
three bytes: so the text gets longer than the limit where the cut leaves one or two bytes
of a character (`respectsLimit_iff`).

A text is made of Unicode scalar values, and a limit is not negative.
-/
import Cronwatch.Theory.Utf8

namespace Cronwatch.Jobs

set_option autoImplicit false

open Cronwatch.Theory

structure CapturedOutput where
  stdout : String := ""
  stderr : String := ""
  truncated : Bool := false
deriving DecidableEq

def defaultMaxBytes : Nat := 64 * 1024

/-- `text.encode("utf-8")`. -/
def encoded (text : String) : List UInt8 := Utf8.encode text.toList

/-- The text, cut if it must be, and whether it was. -/
def truncate (text : String) (maxBytes : Nat) : String × Bool :=
  if (encoded text).length ≤ maxBytes then (text, false)
  else (String.ofList (Utf8.decode ((encoded text).take maxBytes)), true)

def captureOutput (stdoutRaw stderrRaw : String) (maxBytes : Nat := defaultMaxBytes) :
    CapturedOutput :=
  let out := truncate stdoutRaw maxBytes
  let err := truncate stderrRaw maxBytes
  { stdout := out.1, stderr := err.1, truncated := out.2 || err.2 }

/-! ## The limit -/

/-- What a limit is for. -/
structure RespectsLimit (text : String) (maxBytes : Nat) : Prop where
  fits : (encoded (truncate text maxBytes).1).length ≤ maxBytes
  flagged : (truncate text maxBytes).2 = true ↔ maxBytes < (encoded text).length
  untouched : (encoded text).length ≤ maxBytes → (truncate text maxBytes).1 = text
  again : truncate (truncate text maxBytes).1 maxBytes = ((truncate text maxBytes).1, false)

/-- The text fits, or the cut leaves neither one nor two bytes of a character. -/
def CutsClean (text : String) (maxBytes : Nat) : Prop :=
  (encoded text).length ≤ maxBytes ∨
    (Utf8.cutInto maxBytes text.toList ≠ 1 ∧ Utf8.cutInto maxBytes text.toList ≠ 2)

/-- The same of both streams. -/
structure CaptureRespectsLimit (stdoutRaw stderrRaw : String) (maxBytes : Nat) : Prop where
  stdoutFits : (encoded (captureOutput stdoutRaw stderrRaw maxBytes).stdout).length ≤ maxBytes
  stderrFits : (encoded (captureOutput stdoutRaw stderrRaw maxBytes).stderr).length ≤ maxBytes
  flagged : (captureOutput stdoutRaw stderrRaw maxBytes).truncated = true ↔
    maxBytes < (encoded stdoutRaw).length ∨ maxBytes < (encoded stderrRaw).length
  stdoutUntouched : (encoded stdoutRaw).length ≤ maxBytes →
    (captureOutput stdoutRaw stderrRaw maxBytes).stdout = stdoutRaw
  stderrUntouched : (encoded stderrRaw).length ≤ maxBytes →
    (captureOutput stdoutRaw stderrRaw maxBytes).stderr = stderrRaw
  again : captureOutput (captureOutput stdoutRaw stderrRaw maxBytes).stdout
      (captureOutput stdoutRaw stderrRaw maxBytes).stderr maxBytes =
    { captureOutput stdoutRaw stderrRaw maxBytes with truncated := false }

theorem truncate_of_le {text : String} {maxBytes : Nat}
    (short : (encoded text).length ≤ maxBytes) : truncate text maxBytes = (text, false) :=
  if_pos short

theorem truncate_of_lt {text : String} {maxBytes : Nat}
    (long : maxBytes < (encoded text).length) : truncate text maxBytes =
      (String.ofList (Utf8.decode ((encoded text).take maxBytes)), true) :=
  if_neg (Nat.not_le.mpr long)

theorem truncated_iff (text : String) (maxBytes : Nat) :
    (truncate text maxBytes).2 = true ↔ maxBytes < (encoded text).length := by
  rw [truncate]
  split
  · rename_i short
    simpa using short
  · rename_i long
    simpa using long

/-- **When the text that is returned fits**. -/
theorem length_truncate_le_iff (text : String) (maxBytes : Nat) :
    (encoded (truncate text maxBytes).1).length ≤ maxBytes ↔ CutsClean text maxBytes := by
  by_cases short : (encoded text).length ≤ maxBytes
  · rw [truncate_of_le short]
    exact ⟨fun _ => .inl short, fun _ => short⟩
  · have long : maxBytes < (encoded text).length := Nat.not_le.mp short
    rw [truncate_of_lt long, CutsClean, or_iff_right short]
    rw [encoded, String.toList_ofList]
    exact Utf8.length_decode_take_le_iff (Nat.le_of_lt long)

theorem respectsLimit_of_cutsClean {text : String} {maxBytes : Nat}
    (clean : CutsClean text maxBytes) : RespectsLimit text maxBytes where
  fits := (length_truncate_le_iff text maxBytes).mpr clean
  flagged := truncated_iff text maxBytes
  untouched short := by rw [truncate_of_le short]
  again := truncate_of_le ((length_truncate_le_iff text maxBytes).mpr clean)

theorem captureRespectsLimit_of_cutsClean {stdoutRaw stderrRaw : String} {maxBytes : Nat}
    (cleanOut : CutsClean stdoutRaw maxBytes) (cleanErr : CutsClean stderrRaw maxBytes) :
    CaptureRespectsLimit stdoutRaw stderrRaw maxBytes := by
  have out := respectsLimit_of_cutsClean cleanOut
  have err := respectsLimit_of_cutsClean cleanErr
  refine ⟨out.fits, err.fits, ?_, out.untouched, err.untouched, ?_⟩
  · rw [← out.flagged, ← err.flagged, ← Bool.or_eq_true]
    rfl
  · have sameOut : truncate (captureOutput stdoutRaw stderrRaw maxBytes).stdout maxBytes =
        ((captureOutput stdoutRaw stderrRaw maxBytes).stdout, false) := out.again
    have sameErr : truncate (captureOutput stdoutRaw stderrRaw maxBytes).stderr maxBytes =
        ((captureOutput stdoutRaw stderrRaw maxBytes).stderr, false) := err.again
    generalize captureOutput stdoutRaw stderrRaw maxBytes = captured at sameOut sameErr ⊢
    rw [captureOutput, sameOut, sameErr]
    rfl

/-- **Truncation respects its limit** exactly when the cut is clean, and the capture of two
streams exactly when both cuts are. -/
theorem respectsLimit_iff (stdoutRaw stderrRaw : String) (maxBytes : Nat) :
    (RespectsLimit stdoutRaw maxBytes ↔ CutsClean stdoutRaw maxBytes) ∧
      (CaptureRespectsLimit stdoutRaw stderrRaw maxBytes ↔
        CutsClean stdoutRaw maxBytes ∧ CutsClean stderrRaw maxBytes) := by
  refine ⟨⟨fun respects => ?_, respectsLimit_of_cutsClean⟩, fun respects => ?_, fun clean => ?_⟩
  · exact (length_truncate_le_iff stdoutRaw maxBytes).mp respects.fits
  · exact ⟨(length_truncate_le_iff stdoutRaw maxBytes).mp respects.stdoutFits,
      (length_truncate_le_iff stderrRaw maxBytes).mp respects.stderrFits⟩
  · exact captureRespectsLimit_of_cutsClean clean.1 clean.2

/-- One character of two bytes, and a limit of one byte. -/
theorem truncate_splits_character :
    ¬ RespectsLimit "é" 1 ∧ truncate "é" 1 = ("\ufffd", true) ∧
      (encoded (truncate "é" 1).1).length = 3 := by
  have cut : truncate "é" 1 = ("\ufffd", true) := by decide
  have long : (encoded (truncate "é" 1).1).length = 3 := by decide
  exact ⟨fun respects => absurd (long ▸ respects.fits) (by decide), cut, long⟩

end Cronwatch.Jobs
