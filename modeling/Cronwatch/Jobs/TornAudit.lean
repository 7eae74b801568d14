/-
# Jobs.TornAudit -- an audit log that a process stopped in

`AuditLog.record` appends a line of JSON.  A process that stops in it leaves a line without its end,
and the next event goes on in the same line.  `read_all` parses every line and raises at the first
that it cannot parse, and `read_for_job` reads all.

So one torn record makes the log of all jobs unreadable, from then on and for ever (`torn_audit`); a
record that lacks nothing but its line break does so with the next event.  The tokens of the line
are written one by one.
-/
import Cronwatch.Jobs.Audit
import Cronwatch.Theory.AppendFile

namespace Cronwatch.Jobs.AuditLog

set_option autoImplicit false

open Cronwatch.Theory Cronwatch.Runtime
open Cronwatch.Theory.Json (Token Value)

/-- An event of values that JSON has, as all that `now` makes. -/
abbrev NativeEvent := { event : AuditEvent // event.Native }

namespace NativeEvent

/-- `AuditEvent.now`. -/
def now (isoformat : DateTime → String) (clock : DateTime) (event jobName : String)
    (detail : Option String := none) : NativeEvent :=
  ⟨.now isoformat clock event jobName detail, AuditEvent.native_now ..⟩

def line (event : NativeEvent) : List (Token Number) := event.1.asdict.dump.tokens

theorem line_eq (event : NativeEvent) : ∃ j : Value Number, event.line = j.tokens := by
  obtain ⟨j, encoded, -⟩ := native_returns _ (AuditEvent.native_asdict event.2)
  exact ⟨j, by rw [line, dump_of_encode _ j encoded]⟩

end NativeEvent

/-- The lines of the log. -/
def code : LineCode (Token Number) NativeEvent (Value Number) where
  text := NativeEvent.line
  read := Json.parse
  some_ event := (readLine_dump event.2).2.1
  behind := by
    intro event rest more
    obtain ⟨j, is⟩ := event.line_eq
    rw [is]
    exact Json.parse_tokens_append j more
  inside := by
    intro event part rest cut some_ more parts printed
    obtain ⟨j, is⟩ := event.line_eq
    rw [is] at cut
    refine Json.parse_of_cut_append cut some_ more fun q member => ?_
    obtain ⟨other, front⟩ := printed q member
    obtain ⟨j', is'⟩ := other.line_eq
    exact ⟨j', is' ▸ front⟩

/-- The log after these records, from an absent file on. -/
def lived (events : List (Appended NativeEvent)) : AuditLog where
  lines := LineCode.lines (code.file events)

/-- A record on a file that ends in a line break is the one of `AuditLog`. -/
theorem record_ended (ended : List (List (Token Number))) (event : NativeEvent) :
    (record event.1 { lines := ended }).2.lines = (code.append { ended } (.done event)).ended := by
  rw [record, (readLine_dump event.2).1]
  rfl

theorem readAll_lived (events : List (Appended NativeEvent)) :
    (lived events).readAll = (LineCode.lines (code.file events)).mapM readLine := by
  rw [readAll, lived, LineCode.lines, List.filter_filter]
  simp only [Bool.and_self]

/-- **A torn audit log.**  After any records, some of them cut short: where one was cut short inside
its line, or behind it with more to come, the log raises from then on, for every job; where none was,
it has the events whose lines were written to the end. -/
theorem torn_audit (events : List (Appended NativeEvent)) :
    (code.Torn events → ∀ more, (lived (events ++ more)).readAll = .error jsonDecodeError ∧
      ∀ jobName, (lived (events ++ more)).readForJob jobName = .error jsonDecodeError) ∧
    (¬ code.Torn events →
      (lived events).readAll = .ok ((events.filterMap code.whole?).map Subtype.val) ∧
        ∀ jobName, (lived events).readForJob jobName =
          .ok (((events.filterMap code.whole?).map Subtype.val).filter (isOf jobName))) := by
  constructor
  · intro torn more
    obtain ⟨⟨line, among, unread⟩, each⟩ := LineCode.unread_of_torn torn more
    have raises : ∀ line, Json.parse line = none → readLine line = .error jsonDecodeError := by
      intro line unread
      rw [readLine, unread]
    have all : (lived (events ++ more)).readAll = .error jsonDecodeError := by
      rw [readAll_lived]
      refine mapM_raises (fun line member => ?_) ⟨line, among, raises line unread⟩
      rcases each line member with ⟨event, rfl⟩ | unread
      · exact .inl ⟨event.1, (readLine_dump event.2).2.2⟩
      · exact .inr (raises line unread)
    refine ⟨all, fun jobName => ?_⟩
    rw [readForJob, all]
    rfl
  · intro kept
    have all : (lived events).readAll = .ok ((events.filterMap code.whole?).map Subtype.val) := by
      rw [readAll_lived, LineCode.lines_of_whole kept]
      induction events.filterMap code.whole? with
      | nil => rfl
      | cons event rest ih =>
          have first : readLine (code.text event) = .ok event.1 := (readLine_dump event.2).2.2
          rw [List.map_cons, List.mapM_cons, first, ih]
          rfl
    refine ⟨all, fun jobName => ?_⟩
    rw [readForJob, all]
    rfl

end Cronwatch.Jobs.AuditLog
