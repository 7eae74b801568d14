/-
# Alerts.TornHeartbeats -- a heartbeat that is cut short

`HeartbeatStore.record` writes the file of a job in place.  A process that stops while it writes
leaves a text that breaks off, and `all` raises at the first text that it cannot read.
`HeartbeatMonitor.tick` asks for all heartbeats before it looks at any.

So one torn file stops the monitor for every job, until the job that the file belongs to has another
heartbeat or is removed (`torn_heartbeats`).  Without one the monitor sees the last heartbeats.
As in `Jobs.HeartbeatStore`, all files can be opened.
-/
import Cronwatch.Alerts.HeartbeatMonitor
import Cronwatch.Jobs.HeartbeatStore

namespace Cronwatch.Jobs.HeartbeatStore

set_option autoImplicit false

open Cronwatch.Theory Cronwatch.Runtime
open Cronwatch.Theory.Json (Token)

/-- An operation, or a `record` that is cut short with this much of the text written. -/
inductive Life where
  | done (op : Op)
  | cut (jobName : String) (ts : Option DateTime) (utcnow : DateTime) (written : Nat)

def Life.jobName : Life → String
  | .done op => op.jobName
  | .cut jobName _ _ _ => jobName

/-- What the file of a job has. -/
inductive Content where
  | whole (entry : HeartbeatEntry)
  | torn (part : List (Token Number))

variable (iso : IsoFormat)

/-- The text of the heartbeat without its end. -/
def part (entry : HeartbeatEntry) (written : Nat) : List (Token Number) :=
  (text iso entry).dropLast.take written

def Content.text : Content → List (Token Number)
  | .whole entry => HeartbeatStore.text iso entry
  | .torn part => part

/-- The heartbeat of a whole text. -/
def Content.entry : Content → HeartbeatEntry
  | .whole entry => entry
  | .torn _ => ⟨"", 0⟩

def live (store : HeartbeatStore) : Life → HeartbeatStore
  | .done op => store.perform iso op
  | .cut jobName ts utcnow written =>
      { files := store.files.set (path jobName) (part iso ⟨jobName, ts.getD utcnow⟩ written) }

/-- A directory that was empty, after these events. -/
def lived (events : List Life) : HeartbeatStore := events.foldl (live iso) {}

/-! ## What is known of a job -/

inductive Known where
  | nothing
  | beat (entry : HeartbeatEntry)
  | torn
deriving DecidableEq

def Known.beat? : Known → Option HeartbeatEntry
  | .beat entry => some entry
  | .nothing | .torn => none

def knownAfter (jobName : String) (known : Known) : Life → Known
  | .done (.record name ts utcnow) => if name = jobName then .beat ⟨jobName, ts.getD utcnow⟩ else known
  | .done (.remove name) => if name = jobName then .nothing else known
  | .cut name _ _ _ => if name = jobName then .torn else known

def known (jobName : String) (events : List Life) : Known := events.foldl (knownAfter jobName) .nothing

/-! ## The files -/

/-- The contents by job, if each event is on its own job only. -/
def contain (d : Dict String Content) : Life → Dict String Content
  | .done (.record jobName ts utcnow) => d.set jobName (.whole ⟨jobName, ts.getD utcnow⟩)
  | .done (.remove jobName) => d.erase jobName
  | .cut jobName ts utcnow written => d.set jobName (.torn (part iso ⟨jobName, ts.getD utcnow⟩ written))

def contents (events : List Life) : Dict String Content := events.foldl (contain iso) .empty

variable {iso}

theorem parse_part (entry : HeartbeatEntry) (written : Nat) : Json.parse (part iso entry written) = none := by
  obtain ⟨j, encoded, -⟩ := native_returns _ (payload_native iso entry)
  have whole : text iso entry = j.tokens := by rw [text, dump_of_encode _ j encoded]
  have front : part iso entry written ++ (text iso entry).dropLast.drop written =
      (text iso entry).dropLast := List.take_append_drop ..
  have some_ : text iso entry ≠ [] := by
    rw [text, payload, PyValue.dump]
    simp [Written.andThen]
  have split : part iso entry written ++ ((text iso entry).dropLast.drop written ++
      [(text iso entry).getLast some_]) = j.tokens := by
    rw [← List.append_assoc, front, List.dropLast_append_getLast, whole]
  exact Json.parse_of_cut split (by simp)

/-- What the file of a job says, beside what is known of the job. -/
inductive Told : Option Content → Known → Prop
  | nothing : Told none .nothing
  | beat (entry : HeartbeatEntry) : Told (some (.whole entry)) (.beat entry)
  | torn (part : List (Token Number)) : Json.parse part = none → Told (some (.torn part)) .torn

theorem Told.content {content : Content} {known : Known} (told : Told (some content) known) :
    (∃ entry, content = .whole entry ∧ known = .beat entry) ∨
      ∃ part, content = .torn part ∧ known = .torn ∧ Json.parse part = none := by
  cases told with
  | beat entry => exact .inl ⟨entry, rfl, rfl⟩
  | torn part broken => exact .inr ⟨part, rfl, rfl, broken⟩

theorem Told.beat? {held : Option Content} {known : Known} (told : Told held known)
    (whole : known ≠ .torn) : held.map Content.entry = known.beat? := by
  cases told with
  | nothing => rfl
  | beat entry => rfl
  | torn part broken => exact absurd rfl whole

theorem told_contents (iso : IsoFormat) (events : List Life) (jobName : String) :
    Told ((contents iso events).get? jobName) (known jobName events) := by
  induction events using List.reverseRecOn with
  | nil => exact .nothing
  | append_singleton before event ih =>
      rw [contents, known, List.foldl_concat, List.foldl_concat, ← contents, ← known]
      cases event with
      | done op =>
          cases op with
          | record name ts utcnow =>
              rw [contain, Dict.get?_set, knownAfter]
              by_cases same : name = jobName
              · subst same
                rw [if_pos rfl, if_pos rfl]
                exact .beat _
              · rwa [if_neg (Ne.symm same), if_neg same]
          | remove name =>
              rw [contain, Dict.get?_erase, knownAfter]
              by_cases same : name = jobName
              · subst same
                rw [if_pos rfl, if_pos rfl]
                exact .nothing
              · rwa [if_neg (Ne.symm same), if_neg same]
      | cut name ts utcnow written =>
          rw [contain, Dict.get?_set, knownAfter]
          by_cases same : name = jobName
          · subst same
            rw [if_pos rfl, if_pos rfl]
            exact .torn _ (parse_part _ written)
          · rwa [if_neg (Ne.symm same), if_neg same]

theorem jobName_of_known {events : List Life} {jobName : String} {entry : HeartbeatEntry}
    (beat : known jobName events = .beat entry) : entry.jobName = jobName := by
  induction events using List.reverseRecOn with
  | nil => cases beat
  | append_singleton before event ih =>
      rw [known, List.foldl_concat, ← known] at beat
      cases event with
      | done op =>
          cases op with
          | record name ts utcnow =>
              rw [knownAfter] at beat
              split at beat
              · cases beat
                rfl
              · exact ih beat
          | remove name =>
              rw [knownAfter] at beat
              split at beat
              · cases beat
              · exact ih beat
      | cut name ts utcnow written =>
          rw [knownAfter] at beat
          split at beat
          · cases beat
          · exact ih beat

variable {names : Set String} {events : List Life}

theorem names_of_contents (own : ∀ e ∈ events, e.jobName ∈ names) :
    ∀ jobName ∈ (contents iso events).keys, jobName ∈ names := by
  induction events using List.reverseRecOn with
  | nil => exact fun _ impossible => absurd impossible List.not_mem_nil
  | append_singleton before event ih =>
      have earlier := ih fun e member => own e (List.mem_append_left _ member)
      have last := own event (List.mem_append_right _ List.mem_cons_self)
      rw [contents, List.foldl_concat, ← contents]
      intro jobName held
      cases event with
      | done op =>
          cases op with
          | record name ts utcnow =>
              rw [contain, Dict.mem_keys_set] at held
              rcases held with rfl | held
              · exact last
              · exact earlier jobName held
          | remove name =>
              rw [contain, Dict.mem_keys_iff, Dict.get?_erase] at held
              split at held
              · cases held
              · exact earlier jobName ((Dict.mem_keys_iff _ _).mpr held)
      | cut name ts utcnow written =>
          rw [contain, Dict.mem_keys_set] at held
          rcases held with rfl | held
          · exact last
          · exact earlier jobName held

/-- **The directory is the map of the contents**, kept under the names of the files. -/
theorem lived_renamed (iso : IsoFormat) (apart : Apart names) (own : ∀ e ∈ events, e.jobName ∈ names) :
    Renamed path (Content.text iso) (contents iso events) (lived iso events).files := by
  induction events using List.reverseRecOn with
  | nil => exact Renamed.empty
  | append_singleton before event ih =>
      have ownBefore := fun e member => own e (List.mem_append_left [event] member)
      have last := own event (List.mem_append_right _ List.mem_cons_self)
      have told : ToldApart path (contents iso before) event.jobName := fun name held same =>
        apart name (names_of_contents ownBefore name held) _ last ((path_eq_iff name _).mp same)
      rw [contents, lived, List.foldl_concat, List.foldl_concat, ← contents, ← lived]
      cases event with
      | done op =>
          cases op with
          | record jobName ts utcnow =>
              rw [live, perform, record_eq]
              exact (ih ownBefore).set told _
          | remove jobName => exact (ih ownBefore).erase told
      | cut jobName ts utcnow written => exact (ih ownBefore).set told _

/-! ## What is read -/

/-- One text that breaks off ends the loop, whatever else is listed. -/
theorem collect_unreadable {texts : List (List (Token Number))}
    (each : ∀ t ∈ texts, (∃ entry, t = text iso entry) ∨ Json.parse t = none)
    (some_ : ∃ t ∈ texts, Json.parse t = none) (held : Dict String HeartbeatEntry) :
    collect iso held texts = .error jsonDecodeError := by
  induction texts generalizing held with
  | nil => simp at some_
  | cons first rest ih =>
      rw [List.forall_mem_cons] at each
      rw [collect]
      rcases each.1 with ⟨entry, rfl⟩ | broken
      · rw [(readText_text entry).2]
        refine ih each.2 ?_ _
        obtain ⟨t, member, broken⟩ := some_
        rcases List.mem_cons.mp member with rfl | behind
        · obtain ⟨j, encoded, -⟩ := native_returns _ (payload_native iso entry)
          rw [text, dump_of_encode _ j encoded, Json.parse_tokens] at broken
          cases broken
        · exact ⟨t, behind, broken⟩
      · rw [readText, broken]
        rfl

/-- **What `all` comes to**, in whatever order the files are listed: it raises where a heartbeat is
torn, and has the last heartbeats where none is. -/
theorem all_of_lived (iso : IsoFormat) (apart : Apart names) (own : ∀ e ∈ events, e.jobName ∈ names)
    {listing : List (String × List (Token Number))} (listed : listing.Perm (lived iso events).glob) :
    ((∃ jobName, known jobName events = .torn) → all iso listing = .error jsonDecodeError) ∧
      ((∀ jobName, known jobName events ≠ .torn) →
        ∃ d, all iso listing = .ok d ∧ ∀ jobName, d.get? jobName = (known jobName events).beat?) := by
  have renamed := lived_renamed iso apart own
  have files : listing.Perm ((contents iso events).entries.map fun e => (path e.1, e.2.text iso)) := by
    rwa [glob_of_renamed renamed, renamed] at listed
  constructor
  · rintro ⟨jobName, isTorn⟩
    refine collect_unreadable (fun t member => ?_) ?_ _
    · obtain ⟨e, among, rfl⟩ := List.mem_map.mp member
      obtain ⟨e', held, rfl⟩ := List.mem_map.mp (files.mem_iff.mp among)
      have told := told_contents iso events e'.1
      rw [(Dict.mem_entries_iff _ e'.1 e'.2).mp held] at told
      rcases told.content with ⟨entry, is, -⟩ | ⟨part, is, -, broken⟩
      · exact .inl ⟨entry, by rw [is]; rfl⟩
      · exact .inr (by rw [is]; exact broken)
    · have told := told_contents iso events jobName
      rw [isTorn] at told
      cases found : (contents iso events).get? jobName with
      | none =>
          rw [found] at told
          cases told
      | some content =>
          rw [found] at told
          cases told with
          | torn part broken =>
              have held := (Dict.mem_entries_iff _ _ _).mpr found
              have among := files.mem_iff.mpr (List.mem_map_of_mem (f := fun e : String × Content =>
                (path e.1, e.2.text iso)) held)
              exact ⟨part, List.mem_map_of_mem among, broken⟩
  · intro none_
    have whole : ∀ e ∈ (contents iso events).entries, ∃ entry, e.2 = .whole entry ∧ entry.jobName = e.1 := by
      intro e held
      have told := told_contents iso events e.1
      rw [(Dict.mem_entries_iff _ e.1 e.2).mp held] at told
      rcases told.content with ⟨entry, is, beat⟩ | ⟨part, -, isTorn, -⟩
      · exact ⟨entry, is, jobName_of_known beat⟩
      · exact absurd isTorn (none_ e.1)
    have beats : Renamed path (text iso) ((contents iso events).mapEntries fun _ c => c.entry)
        (lived iso events).files := by
      rw [Renamed, renamed, Dict.entries_mapEntries, List.map_map]
      apply List.map_congr_left
      intro e held
      obtain ⟨entry, is, -⟩ := whole e held
      rw [is, Function.comp_apply, is]
      rfl
    have named : ∀ jobName entry, ((contents iso events).mapEntries fun _ c => c.entry).get? jobName =
        some entry → entry.jobName = jobName := by
      intro jobName entry found
      rw [Dict.get?_mapEntries, Option.map_eq_some_iff] at found
      obtain ⟨content, held, rfl⟩ := found
      obtain ⟨entry, is, name⟩ := whole (jobName, content) ((Dict.mem_entries_iff _ _ _).mpr held)
      dsimp only at is
      rw [is]
      exact name
    obtain ⟨d, read, same⟩ := all_of_renamed beats named listed
    refine ⟨d, read, fun jobName => ?_⟩
    rw [same, Dict.get?_mapEntries]
    exact (told_contents iso events jobName).beat? (none_ jobName)

end Cronwatch.Jobs.HeartbeatStore

namespace Cronwatch.Alerts.HeartbeatMonitor

open Cronwatch.Theory Cronwatch.Runtime Cronwatch.Jobs
open Cronwatch.Jobs.HeartbeatStore (Life Apart known lived all glob)

/-- `tick` of a monitor whose store lists these files. -/
def tickStore (iso : IsoFormat) (send : Send) (now : DateTime) (listing : List (String × List (Json.Token Number)))
    (m : HeartbeatMonitor) : Except PyException (List HeartbeatViolation) × HeartbeatMonitor :=
  match all iso listing with
  | .error e => (.error e, m)
  | .ok heartbeats => m.tick send now heartbeats

/-- **A torn heartbeat stops the monitor.**  After any heartbeats and removals, some of them cut
short in the middle of the file, of jobs with files of their own: while the last that happened to
some job is a heartbeat that was cut short, every tick raises and alerts for no job; otherwise the
monitor sees of every job the heartbeat that it had last. -/
theorem torn_heartbeats (iso : IsoFormat) (names : Set String) (apart : Apart names) (events : List Life)
    (own : ∀ e ∈ events, e.jobName ∈ names) :
    ∀ listing, listing.Perm (lived iso events).glob → ∀ (send : Send) (now : DateTime) (m : HeartbeatMonitor),
      ((∃ jobName, known jobName events = .torn) →
        m.tickStore iso send now listing = (.error jsonDecodeError, m)) ∧
      ((∀ jobName, known jobName events ≠ .torn) →
        ∃ d : Dict String HeartbeatEntry, (∀ jobName, d.get? jobName = (known jobName events).beat?) ∧
          m.tickStore iso send now listing = m.tick send now d) := by
  intro listing listed send now m
  obtain ⟨torn, whole⟩ := HeartbeatStore.all_of_lived iso apart own listed
  refine ⟨fun some_ => ?_, fun none_ => ?_⟩
  · rw [tickStore, torn some_]
  · obtain ⟨d, read, beats⟩ := whole none_
    exact ⟨d, beats, by rw [tickStore, read]⟩

/-- The process stops in the heartbeat of `backup`; `etl` is silent for an hour then, and nobody is
told. -/
theorem torn_heartbeats_etl :
    let iso : IsoFormat := .sample 0 "1970-01-01T00:00:00+00:00" (by decide)
    let events : List Life := [.done (.record "etl" none 0), .cut "backup" none (seconds 5) 3]
    (∃ jobName, known jobName events = .torn) ∧ known "etl" events = .beat ⟨"etl", 0⟩ ∧
      ∀ (send : Send) (m : HeartbeatMonitor), m.tickStore iso send (seconds 3600) (lived iso events).glob =
        (.error jsonDecodeError, m) := by
  intro iso events
  have differ : HeartbeatStore.safe "etl" ≠ HeartbeatStore.safe "backup" := by
    intro same
    have lists := congrArg String.toList same
    simp only [HeartbeatStore.safe, underscored, String.toList_map] at lists
    revert lists
    decide
  have apart : Apart {"etl", "backup"} := by
    rintro name (rfl | rfl) name' (rfl | rfl) same
    · rfl
    · exact absurd same differ
    · exact absurd same.symm differ
    · rfl
  have own : ∀ e ∈ events, e.jobName ∈ ({"etl", "backup"} : Set String) := by
    intro e member
    rw [List.mem_cons, List.mem_singleton] at member
    rcases member with rfl | rfl
    · exact .inl rfl
    · exact .inr rfl
  have some_ : ∃ jobName, known jobName events = .torn := ⟨"backup", by decide⟩
  exact ⟨some_, by decide, fun send m =>
    (torn_heartbeats iso _ apart events own _ (.refl _) send (seconds 3600) m).1 some_⟩

end Cronwatch.Alerts.HeartbeatMonitor
