/-
# Theory.LineFile -- text files with a record on each line

A `Format` writes a record as a text and reads it back, and says where a file is broken
into lines and what of a line is trimmed away; blank lines are skipped.  A file is
written to its end only, a record and a line break at a time, so every line of it is
ended.  To such a file an append adds one record, and changes none (`read_append`).
-/
import Mathlib.Logic.Function.Basic

namespace Cronwatch.Theory

set_option autoImplicit false

universe u v

/-- Records of type `α` on lines; reading a line can fail with an `ε`. -/
structure Format (α : Type u) (ε : Type v) where
  encode : α → List Char
  decode : List Char → Except ε α
  isBreak : Char → Bool
  trim : List Char → List Char

namespace Format

variable {α : Type u} {ε : Type v} (f : Format α ε)

/-- A record is a line of its own that reads back as the record, and trimming a blank
line leaves nothing. -/
structure Lawful : Prop where
  decode_encode : ∀ a, f.decode (f.encode a) = .ok a
  unbroken : ∀ a, ∀ c ∈ f.encode a, f.isBreak c = false
  trim_encode : ∀ a, f.trim (f.encode a) = f.encode a
  encode_ne_nil : ∀ a, f.encode a ≠ []
  trim_nil : f.trim [] = []
  newline : f.isBreak '\n' = true

/-- The lines of a text that are not blank. -/
def lines (text : List Char) : List (List Char) :=
  ((text.splitOnP f.isBreak).map f.trim).filter (· ≠ [])

/-- The records of a text, or the failure of the first line that does not read. -/
def read (text : List Char) : Except ε (List α) := (f.lines text).mapM f.decode

def append (text : List Char) (a : α) : List Char := text ++ (f.encode a ++ ['\n'])

/-- Every line is ended. -/
def Ended (text : List Char) : Prop := text = [] ∨ ∃ front, text = front ++ ['\n']

theorem ended_append (text : List Char) (a : α) : Ended (f.append text a) :=
  .inr ⟨text ++ f.encode a, (List.append_assoc ..).symm⟩

variable {f}

namespace Lawful

variable (lawful : f.Lawful)

include lawful

theorem lines_nil : f.lines [] = [] := by
  rw [lines, List.splitOnP_nil, List.map_singleton, lawful.trim_nil]
  rfl

/-- What stands behind an ended text is on lines of its own. -/
theorem lines_ended {text : List Char} (ended : Ended text) (rest : List Char) :
    f.lines (text ++ rest) = f.lines text ++ f.lines rest := by
  rcases ended with rfl | ⟨front, rfl⟩
  · rw [lawful.lines_nil]
    rfl
  · have blank : f.lines (front ++ ['\n']) = f.lines front := by
      rw [lines, List.splitOnP_append_cons front [] lawful.newline, List.map_append,
        List.filter_append]
      exact (congrArg (f.lines front ++ ·) lawful.lines_nil).trans (List.append_nil _)
    rw [blank, List.append_assoc, List.singleton_append, lines,
      List.splitOnP_append_cons front rest lawful.newline, List.map_append, List.filter_append]
    rfl

theorem lines_encode (a : α) : f.lines (f.encode a ++ ['\n']) = [f.encode a] := by
  rw [lines, List.splitOnP_append_cons _ [] lawful.newline,
    List.splitOnP_eq_singleton (lawful.unbroken a), List.splitOnP_nil]
  simp [lawful.trim_encode, lawful.trim_nil, lawful.encode_ne_nil a]

/-- **An append** to an ended text adds one record behind the others. -/
theorem read_append {text : List Char} (ended : Ended text) {previous : List α}
    (before : f.read text = .ok previous) (a : α) :
    f.read (f.append text a) = .ok (previous ++ [a]) := by
  rw [read] at before
  rw [read, append, lawful.lines_ended ended, lawful.lines_encode, List.mapM_append, before,
    List.mapM_cons, lawful.decode_encode]
  rfl

end Lawful

end Format

end Cronwatch.Theory
