/-
# Jobs.OverlappingArchivers -- calls of `archive_job` that overlap

`archive_job` reads the history of a job, goes through what it has read, and in the end writes what
remains of it.  Between the two other processes may call it as well, for this job or for others, and
finished runs may be recorded.

`Archivers` holds the stores and where every process is in its call; a pass of the loop is a step, as
are reading the file and replacing it.  On its own a call is `archiveJob` (`exec_alone`).

`overlapping_archivers`: a step loses an entry exactly when it replaces a file by what is left of an
older reading that did not have the entry yet.  What is stored while no call works on its file stays
in one of the two stores, whatever happens later.
-/
import Cronwatch.Jobs.Archiving
import Cronwatch.Theory.ReadReplace
import Cronwatch.Theory.Transition

namespace Cronwatch.Jobs

set_option autoImplicit false

open Cronwatch.Theory Cronwatch.Runtime JobArchiver

/-- A call of `archive_job` under way; `rest` is what the loop has not come to. -/
structure ArchiveCall where
  jobName : String
  entries : List HistoryEntry
  rest : List HistoryEntry
  archived : Nat := 0
  remaining : List HistoryEntry := []

/-- The call comes to its end next, and replaces the file, for it has archived something. -/
def ArchiveCall.Replaces (c : ArchiveCall) : Prop := c.rest = [] ∧ c.archived ≠ 0

instance (c : ArchiveCall) : Decidable c.Replaces := inferInstanceAs (Decidable (_ ∧ _))

structure Archivers (ρ : Type) where
  stores : Stores := {}
  call : ρ → Option ArchiveCall := fun _ => none

namespace Archivers

inductive Action (ρ : Type) where
  /-- The line of a finished run is added to the file of its job. -/
  | record (entry : HistoryEntry)
  /-- The process calls `archive_job`, which reads the file. -/
  | start (p : ρ) (jobName : String)
  /-- Its call looks at the next entry at this time, or comes to its end. -/
  | next (p : ρ) (now : DateTime)
  /-- The process is stopped. -/
  | stop (p : ρ)

variable {ρ : Type} [DecidableEq ρ]

def setCall (s : Archivers ρ) (p : ρ) (c : Option ArchiveCall) : Archivers ρ :=
  { s with call := Function.update s.call p c }

/-- What comes after the loop. -/
def conclude (s : Archivers ρ) (p : ρ) (c : ArchiveCall) : Archivers ρ where
  stores :=
    if c.archived ≠ 0 then
      { s.stores with history := s.stores.history.replaceEntries c.jobName c.remaining }
    else s.stores
  call := Function.update s.call p none

section Step

variable (fromisoformat : String → Except PyException ISODateTime) (policy : ArchivePolicy)

def advance (s : Archivers ρ) (p : ρ) (c : ArchiveCall) (now : DateTime) : Archivers ρ :=
  match c.rest with
  | [] => s.conclude p c
  | entry :: rest =>
      match shouldArchive fromisoformat policy entry now with
      | .error _ => s.setCall p none
      | .ok true =>
          { stores := { s.stores with archive := s.stores.archive.append entry }
            call := Function.update s.call p (some { c with rest, archived := c.archived + 1 }) }
      | .ok false => s.setCall p (some { c with rest, remaining := c.remaining ++ [entry] })

def step (s : Archivers ρ) : Action ρ → Option (Archivers ρ)
  | .record entry =>
      some { s with stores :=
        { s.stores with history := s.stores.history.write entry.jobName entry } }
  | .start p jobName =>
      match s.call p with
      | some _ => none
      | none =>
          let entries := s.stores.history.entriesFor jobName
          some (s.setCall p (some { jobName, entries, rest := entries }))
  | .next p now => (s.call p).map fun c => s.advance fromisoformat policy p c now
  | .stop p => some (s.setCall p none)

/-- At first no process is in a call. -/
def system (ρ : Type) [DecidableEq ρ] : TransitionSystem (Archivers ρ) (Action ρ) where
  init := fun s => ∀ p, s.call p = none
  step := step fromisoformat policy

end Step

/-- The entry is in this file of the history, or in the archive. -/
def Stored (s : Archivers ρ) (file : String) (entry : HistoryEntry) : Prop :=
  entry ∈ s.stores.history.files file ∨ entry ∈ s.stores.archive.entriesFor entry.jobName


/-! ## One pass of the loop -/

section Pass

variable {fromisoformat : String → Except PyException ISODateTime} {policy : ArchivePolicy}
  {s : Archivers ρ} {p : ρ} {c : ArchiveCall} {now : DateTime} {entry : HistoryEntry}
  {rest : List HistoryEntry}

theorem advance_done (done : c.rest = []) :
    s.advance fromisoformat policy p c now = s.conclude p c := by
  rw [advance, done]

theorem advance_raised {e : PyException} (waits : c.rest = entry :: rest)
    (answer : shouldArchive fromisoformat policy entry now = .error e) :
    s.advance fromisoformat policy p c now = s.setCall p none := by
  rw [advance, waits]
  dsimp only
  rw [answer]

theorem advance_archived (waits : c.rest = entry :: rest)
    (answer : shouldArchive fromisoformat policy entry now = .ok true) :
    s.advance fromisoformat policy p c now =
      { stores := { s.stores with archive := s.stores.archive.append entry }
        call := Function.update s.call p (some { c with rest, archived := c.archived + 1 }) } := by
  rw [advance, waits]
  dsimp only
  rw [answer]

theorem advance_kept (waits : c.rest = entry :: rest)
    (answer : shouldArchive fromisoformat policy entry now = .ok false) :
    s.advance fromisoformat policy p c now =
      s.setCall p (some { c with rest, remaining := c.remaining ++ [entry] }) := by
  rw [advance, waits]
  dsimp only
  rw [answer]

end Pass

/-! ## On its own -/

section Alone

variable {fromisoformat : String → Except PyException ISODateTime} {policy : ArchivePolicy}

theorem step_next {s : Archivers ρ} {p : ρ} {c : ArchiveCall} (held : s.call p = some c)
    (now : DateTime) : (system fromisoformat policy ρ).step s (.next p now) =
      some (s.advance fromisoformat policy p c now) := by
  show (s.call p).map _ = _
  rw [held]
  rfl

/-- The stores after the rest of the loop, and what comes after it. -/
def concluded (c : ArchiveCall) (stores : Stores) :
    Except PyException (Nat × List HistoryEntry) × ArchiveStore → Stores
  | (.error _, archive) => { stores with archive }
  | (.ok (archived, remaining), archive) =>
      if c.archived + archived ≠ 0 then
        { history := stores.history.replaceEntries c.jobName (c.remaining ++ remaining), archive }
      else { stores with archive }

theorem concluded_archived (c : ArchiveCall) (rest : List HistoryEntry) (stores : Stores)
    (archive : ArchiveStore) (result : Except PyException (Nat × List HistoryEntry) × ArchiveStore) :
    concluded { c with rest, archived := c.archived + 1 } { stores with archive } result =
      concluded c stores (match result with
        | (.error e, archive) => (.error e, archive)
        | (.ok (archived, remaining), archive) => (.ok (archived + 1, remaining), archive)) := by
  obtain ⟨e | ⟨archived, remaining⟩, after⟩ := result
  · rfl
  · rw [concluded, concluded, Nat.add_right_comm c.archived 1 archived]
    rfl

theorem concluded_kept (c : ArchiveCall) (entry : HistoryEntry) (rest : List HistoryEntry)
    (stores : Stores) (result : Except PyException (Nat × List HistoryEntry) × ArchiveStore) :
    concluded { c with rest, remaining := c.remaining ++ [entry] } stores result =
      concluded c stores (match result with
        | (.error e, archive) => (.error e, archive)
        | (.ok (archived, remaining), archive) => (.ok (archived, entry :: remaining), archive)) := by
  obtain ⟨e | ⟨archived, remaining⟩, after⟩ := result
  · rfl
  · rw [concluded, concluded, List.append_assoc]
    rfl

/-- **The rest of a call**, which nobody interrupts, is the rest of the loop of `archiveJob`. -/
theorem exec_rest (nowAt : Nat → DateTime) (p : ρ) {c : ArchiveCall} (i : Nat) {s : Archivers ρ}
    (held : s.call p = some c) :
    ∃ n, (system fromisoformat policy ρ).exec ((List.range' i n).map fun j => .next p (nowAt j)) s =
      some {
        stores := concluded c s.stores
          (archiveLoop fromisoformat policy nowAt i c.rest s.stores.archive)
        call := Function.update s.call p none } := by
  have first := fun {c : ArchiveCall} {s : Archivers ρ} (held : s.call p = some c) (i : Nat) =>
    @step_next ρ _ fromisoformat policy s p c held (nowAt i)
  -- on what the loop has not come to; the call carries what it has archived and kept so far
  generalize waits : c.rest = rest
  induction rest generalizing i c s with
  | nil =>
      refine ⟨1, (TransitionSystem.exec_cons (first held i) []).trans ?_⟩
      rw [advance_done waits, archiveLoop, concluded, List.append_nil]
      rfl
  | cons entry rest ih =>
      rw [archiveLoop]
      cases answer : shouldArchive fromisoformat policy entry (nowAt i) with
      | error e =>
          refine ⟨1, (TransitionSystem.exec_cons (first held i) []).trans ?_⟩
          rw [advance_raised waits answer]
          rfl
      | ok old =>
          cases old with
          | true =>
              have taken := first held i
              rw [advance_archived waits answer] at taken
              let later : ArchiveCall := { c with rest, archived := c.archived + 1 }
              let after : Archivers ρ :=
                { stores := { s.stores with archive := s.stores.archive.append entry }
                  call := Function.update s.call p (some later) }
              obtain ⟨n, ran⟩ := ih (i + 1) (c := later) (s := after) (Function.update_self ..) rfl
              have ended : Function.update after.call p none = Function.update s.call p none :=
                Function.update_idem ..
              refine ⟨n + 1, (TransitionSystem.exec_cons taken _).trans (ran.trans ?_)⟩
              exact congrArg₂ (fun stores call => some (Archivers.mk stores call))
                (concluded_archived ..) ended
          | false =>
              have taken := first held i
              rw [advance_kept waits answer] at taken
              let later : ArchiveCall := { c with rest, remaining := c.remaining ++ [entry] }
              let after : Archivers ρ := s.setCall p (some later)
              obtain ⟨n, ran⟩ := ih (i + 1) (c := later) (s := after) (Function.update_self ..) rfl
              have ended : Function.update after.call p none = Function.update s.call p none :=
                Function.update_idem ..
              refine ⟨n + 1, (TransitionSystem.exec_cons taken _).trans (ran.trans ?_)⟩
              exact congrArg₂ (fun stores call => some (Archivers.mk stores call))
                (concluded_kept ..) ended

/-- **On its own** a call of a process does to the stores what `archiveJob` does. -/
theorem exec_alone (nowAt : Nat → DateTime) (p : ρ) (jobName : String) {s : Archivers ρ}
    (free : s.call p = none) :
    ∃ n, (system fromisoformat policy ρ).exec
        (.start p jobName :: (List.range' 0 n).map fun j => .next p (nowAt j)) s =
      some { s with stores := (archiveJob fromisoformat policy nowAt jobName s.stores).2 } := by
  let entries := s.stores.history.entriesFor jobName
  let started := s.setCall p (some { jobName, entries, rest := entries })
  have first : (system fromisoformat policy ρ).step s (.start p jobName) = some started := by
    show step fromisoformat policy s (.start p jobName) = some started
    rw [step, free]
  have held : started.call p = some { jobName, entries, rest := entries } := Function.update_self ..
  obtain ⟨n, ran⟩ := @exec_rest ρ _ fromisoformat policy nowAt p _ 0 started held
  refine ⟨n, (TransitionSystem.exec_cons first _).trans (ran.trans ?_)⟩
  have call : Function.update started.call p none = s.call := by
    show Function.update (Function.update s.call p _) p none = s.call
    rw [Function.update_idem, ← free, Function.update_eq_self]
  rw [call, archiveJob]
  show some (Archivers.mk (concluded _ s.stores (archiveLoop fromisoformat policy nowAt 0 entries
    s.stores.archive)) s.call) = _
  rcases archiveLoop fromisoformat policy nowAt 0 entries s.stores.archive with
    ⟨e | ⟨archived, remaining⟩, archive⟩
  · rfl
  · rw [concluded, List.nil_append, Nat.zero_add]
    dsimp only
    split <;> rfl

end Alone

/-! ## What overlapping calls lose -/

section Loss

variable {ρ : Type}

/-- The call as a reader of its file. -/
def view (c : ArchiveCall) : View String HistoryEntry where
  place := safeFile c.jobName
  read := { entry | entry ∈ c.entries }
  back := { entry | entry ∈ c.remaining ∨ entry ∈ c.rest }

/-- A call that has just read its file would put all of it back. -/
theorem view_start (jobName : String) (entries : List HistoryEntry) :
    view { jobName, entries, rest := entries } =
      ⟨safeFile jobName, { entry | entry ∈ entries }, { entry | entry ∈ entries }⟩ := by
  rw [view]
  congr 1
  ext entry
  exact or_iff_right (List.not_mem_nil)

def contentsOf (history : HistoryStore) (file : String) : Set HistoryEntry :=
  { entry | entry ∈ history.files file }

def asideOf (archive : ArchiveStore) : Set HistoryEntry :=
  { entry | entry ∈ archive.entriesFor entry.jobName }

def viewsOf (call : ρ → Option ArchiveCall) (p : ρ) : Option (View String HistoryEntry) :=
  (call p).map view

/-- The files of the history are the places, and what is in the archive is set aside. -/
def places (s : Archivers ρ) : Places String ρ HistoryEntry where
  contents := contentsOf s.stores.history
  aside := asideOf s.stores.archive
  view := viewsOf s.call

theorem viewsOf_update [DecidableEq ρ] (call : ρ → Option ArchiveCall) (p : ρ)
    (c : Option ArchiveCall) :
    viewsOf (Function.update call p c) = Function.update (viewsOf call) p (c.map view) := by
  funext q
  rw [viewsOf]
  by_cases own : q = p
  · subst own
    rw [Function.update_self, Function.update_self]
  · rw [Function.update_of_ne own, Function.update_of_ne own]
    rfl

theorem contentsOf_write (history : HistoryStore) (entry : HistoryEntry) :
    contentsOf (history.write entry.jobName entry) =
      Function.update (contentsOf history) (safeFile entry.jobName)
        (insert entry (contentsOf history (safeFile entry.jobName))) := by
  funext file
  by_cases here : file = safeFile entry.jobName
  · subst here
    rw [Function.update_self]
    ext e
    have written := HistoryStore.entriesFor_write entry.jobName entry history
    show e ∈ (history.write entry.jobName entry).entriesFor entry.jobName ↔ _
    rw [written, List.mem_append, List.mem_singleton, or_comm]
    rfl
  · have same : (history.write entry.jobName entry).files file = history.files file :=
      Function.update_of_ne here ..
    rw [Function.update_of_ne here, contentsOf, same, contentsOf]

theorem contentsOf_replaceEntries (history : HistoryStore) (jobName : String)
    (entries : List HistoryEntry) :
    contentsOf (history.replaceEntries jobName entries) =
      Function.update (contentsOf history) (safeFile jobName) { entry | entry ∈ entries } := by
  funext file
  by_cases here : file = safeFile jobName
  · subst here
    have replaced := HistoryStore.entriesFor_replaceEntries jobName entries history
    rw [HistoryStore.entriesFor] at replaced
    rw [Function.update_self, contentsOf]
    exact congrArg (fun stored => { entry | entry ∈ stored }) replaced
  · have same := HistoryStore.replaceEntries_files jobName entries history here
    rw [Function.update_of_ne here, contentsOf, same, contentsOf]

theorem asideOf_append (archive : ArchiveStore) (entry : HistoryEntry) :
    asideOf (archive.append entry) = insert entry (asideOf archive) := by
  ext e
  show e ∈ (archive.append entry).entriesFor e.jobName ↔ e = entry ∨ e ∈ archive.entriesFor e.jobName
  by_cases here : ArchiveStore.pathFor e.jobName = ArchiveStore.pathFor entry.jobName
  · have appended : (archive.append entry).entriesFor e.jobName = archive.entriesFor e.jobName ++ [entry] := by
      rw [ArchiveStore.entriesFor, ArchiveStore.entriesFor, here]
      exact Function.update_self ..
    rw [appended, List.mem_append, List.mem_singleton, or_comm]
  · have same : (archive.append entry).entriesFor e.jobName = archive.entriesFor e.jobName :=
      Function.update_of_ne here ..
    have other : e ≠ entry := fun same => here (by rw [same])
    rw [same, or_iff_right other]

variable [DecidableEq ρ]

/-- The reader that replaces its file in this step. -/
def replacing (s : Archivers ρ) : Action ρ → Option (View String HistoryEntry)
  | .next p _ => (s.call p).bind fun c => if c.Replaces then some (view c) else none
  | _ => none

variable {fromisoformat : String → Except PyException ISODateTime} {policy : ArchivePolicy}

/-- What comes after the loop: the reader replaces the place, or leaves it. -/
theorem conclude_places {s : Archivers ρ} {p : ρ} {c : ArchiveCall}
    (seen : s.places.view p = some (view c)) (done : c.rest = []) :
    Places.Step s.places (if c.Replaces then some (view c) else none) (s.conclude p c).places := by
  show Places.Step s.places _ ⟨contentsOf (s.conclude p c).stores.history,
    asideOf (s.conclude p c).stores.archive, viewsOf (Function.update s.call p none)⟩
  rw [viewsOf_update, conclude]
  dsimp only
  by_cases some_ : c.archived ≠ 0
  · have back : { entry | entry ∈ c.remaining } = (view c).back := by
      ext entry
      rw [view, done]
      exact (or_iff_left List.not_mem_nil).symm
    rw [if_pos ⟨done, some_⟩, if_pos some_, contentsOf_replaceEntries, back]
    exact .replace s.places p _ seen
  · rw [if_neg fun replaces => some_ replaces.2, if_neg some_]
    exact .leave s.places p

/-- An entry that is kept goes from what waits to what remains. -/
theorem view_kept {c : ArchiveCall} {entry : HistoryEntry} {rest : List HistoryEntry}
    (waits : c.rest = entry :: rest) :
    view { c with rest, remaining := c.remaining ++ [entry] } = view c := by
  rw [view, view, waits]
  congr 1
  ext e
  simp [or_assoc]

/-- A pass of the loop, or what comes after it, is a step of the reader. -/
theorem advance_places {s : Archivers ρ} {p : ρ} {c : ArchiveCall}
    (seen : s.places.view p = some (view c)) (now : DateTime) :
    Places.Step s.places (if c.Replaces then some (view c) else none)
      (s.advance fromisoformat policy p c now).places := by
  cases waits : c.rest with
  | nil =>
      rw [advance_done waits]
      exact conclude_places seen waits
  | cons entry rest =>
      rw [if_neg fun replaces => List.cons_ne_nil _ _ (waits.symm.trans replaces.1)]
      cases answer : shouldArchive fromisoformat policy entry now with
      | error e =>
          rw [advance_raised waits answer]
          show Places.Step s.places none ⟨_, _, viewsOf (Function.update s.call p none)⟩
          rw [viewsOf_update]
          exact .leave s.places p
      | ok old =>
          cases old with
          | true =>
              rw [advance_archived waits answer]
              show Places.Step s.places none ⟨_, asideOf (s.stores.archive.append entry),
                viewsOf (Function.update s.call p _)⟩
              rw [viewsOf_update, asideOf_append]
              have back : (view c).back = { e | e ∈ c.remaining ∨ e ∈ entry :: rest } := by
                rw [view, waits]
              refine .setAside s.places p _ entry _ seen ?_ ?_
              · rw [back]
                exact fun e => Or.imp_right (List.mem_cons_of_mem entry)
              · rw [back]
                rintro e (kept | still)
                · exact .inr (.inl kept)
                · exact (List.mem_cons.mp still).imp_right .inr
          | false =>
              rw [advance_kept waits answer]
              show Places.Step s.places none ⟨_, _, viewsOf (Function.update s.call p _)⟩
              have still : Function.update (viewsOf s.call) p (s.places.view p) = viewsOf s.call :=
                Function.update_eq_self ..
              rw [viewsOf_update, Option.map_some, view_kept waits, ← seen, still]
              exact .idle s.places

/-- **A step of the processes** is one of readers of the files. -/
theorem step_places {s s' : Archivers ρ} {a : Action ρ}
    (taken : (system fromisoformat policy ρ).step s a = some s') :
    Places.Step s.places (s.replacing a) s'.places := by
  change step fromisoformat policy s a = some s' at taken
  cases a with
  | record entry =>
      cases taken
      show Places.Step s.places none ⟨contentsOf (s.stores.history.write entry.jobName entry), _, _⟩
      rw [contentsOf_write]
      exact .add s.places (safeFile entry.jobName) entry
  | start p jobName =>
      rw [step] at taken
      cases free : s.call p with
      | some c => rw [free] at taken; cases taken
      | none =>
          rw [free] at taken
          cases taken
          show Places.Step s.places none ⟨_, _, viewsOf (Function.update s.call p _)⟩
          rw [viewsOf_update, Option.map_some, view_start]
          exact .read s.places p (safeFile jobName)
  | next p now =>
      obtain ⟨c, held, moved⟩ := Option.map_eq_some_iff.mp taken
      have seen : s.places.view p = some (view c) := by
        show (s.call p).map view = _
        rw [held, Option.map_some]
      have put : s.replacing (.next p now) = if c.Replaces then some (view c) else none := by
        rw [replacing, held, Option.bind_some]
      subst moved
      rw [put]
      exact advance_places seen now
  | stop p =>
      cases taken
      show Places.Step s.places none ⟨_, _, viewsOf (Function.update s.call p _)⟩
      rw [viewsOf_update]
      exact .leave s.places p

/-- A call puts back nothing but what it has read, and all of that but what is archived. -/
theorem sound_of_reachable {s : Archivers ρ}
    (reachable : (system fromisoformat policy ρ).Reachable s) : s.places.Sound := by
  refine @TransitionSystem.RunsTo.invariant _ _ _ _ (fun s => s.places.Sound) ?_ ?_ s reachable
  · intro s free p v held
    have none_ : s.places.view p = none := congrArg (Option.map view) (free p)
    rw [none_] at held
    cases held
  · exact fun s a s' sound _ taken => Places.Sound.step sound (step_places taken)

/-- What every call on the file knows of, or is archived, is so in every later state. -/
theorem known_exec {actions : List (Action ρ)} {s s' : Archivers ρ} {file : String}
    {entry : HistoryEntry} (sound : s.places.Sound) (known : s.places.Known file entry)
    (ran : (system fromisoformat policy ρ).exec actions s = some s') :
    s'.places.Known file entry := by
  induction actions generalizing s with
  | nil =>
      cases ran
      exact known
  | cons a rest ih =>
      obtain ⟨s₁, taken, later⟩ := Option.bind_eq_some_iff.mp ran
      have step := step_places taken
      exact ih (sound.step step) (known.step sound step) later

/-- **Overlapping calls of `archive_job`.**  A step loses an entry exactly when it replaces the file
by what is left of a reading that did not have the entry, which is not archived either; and what is
stored while no call works on its file stays stored. -/
theorem overlapping_archivers {s : Archivers ρ}
    (reachable : (system fromisoformat policy ρ).Reachable s) (file : String) (entry : HistoryEntry)
    (stored : s.Stored file entry) :
    (∀ a s', (system fromisoformat policy ρ).step s a = some s' →
      (¬ s'.Stored file entry ↔ ∃ p now c, a = .next p now ∧ s.call p = some c ∧ c.Replaces ∧
        safeFile c.jobName = file ∧ entry ∉ c.entries ∧
        entry ∉ s.stores.archive.entriesFor entry.jobName)) ∧
      ((∀ p c, s.call p = some c → safeFile c.jobName ≠ file) →
        ∀ actions s', (system fromisoformat policy ρ).exec actions s = some s' →
          s'.Stored file entry) := by
  have sound := sound_of_reachable reachable
  refine ⟨fun a s' taken => ?_, fun free actions s' ran => ?_⟩
  · have lost := (step_places taken).lost_iff sound stored
    refine lost.trans ⟨?_, ?_⟩
    · rintro ⟨v, put, here, unread, out⟩
      cases a with
      | next p now =>
          obtain ⟨c, held, replaced⟩ := Option.bind_eq_some_iff.mp put
          obtain ⟨replaces, ⟨⟩⟩ := Option.ite_none_right_eq_some.mp replaced
          exact ⟨p, now, c, rfl, held, replaces, here, unread, out⟩
      | record _ => cases put
      | start _ _ => cases put
      | stop _ => cases put
    · rintro ⟨p, now, c, rfl, held, replaces, here, unread, out⟩
      refine ⟨view c, ?_, here, unread, out⟩
      rw [replacing, held, Option.bind_some, if_pos replaces]
  · refine (known_exec sound (Places.known_of_unread stored fun p v held => ?_) ran).1
    obtain ⟨c, called, rfl⟩ := Option.map_eq_some_iff.mp held
    exact free p c called

end Loss

/-- A run of the job that finishes in June. -/
def juneRun : HistoryEntry where
  jobName := "backup"
  success := true
  exitCode := 0
  duration := 5
  startedAt := "2024-06-01T12:00:00+00:00"
  finishedAt := some "2024-06-01T12:00:05+00:00"

/-- A run that is recorded between the reading and the replacement of an archiver is lost. -/
theorem recorded_meanwhile_lost :
    ∃ s s' : Archivers Unit, (system isoSample {} Unit).exec
        [.start () "backup", .record juneRun, .next () (june 0), .next () (june 0)]
        { stores := twoRuns } = some s ∧
      (system isoSample {} Unit).step s (.next () (june 0)) = some s' ∧
      s.Stored "backup.jsonl" juneRun ∧ ¬ s'.Stored "backup.jsonl" juneRun := by
  let start : Archivers Unit := { stores := twoRuns }
  let actions : List (Action Unit) :=
    [.start () "backup", .record juneRun, .next () (june 0), .next () (june 0)]
  have files : ((system isoSample {} Unit).exec actions start).map (fun s =>
      (s.stores.history.files "backup.jsonl", s.stores.archive.entriesFor "backup")) =
      some ([oldRun, recentRun, juneRun], [oldRun]) := by
    decide +kernel
  have call : ((system isoSample {} Unit).exec actions start).bind (fun s =>
      (s.call ()).map fun c => (c.jobName, c.entries, c.rest, c.archived)) =
      some ("backup", [oldRun, recentRun], [], 1) := by
    decide +kernel
  obtain ⟨s, ran, seen⟩ := Option.map_eq_some_iff.mp files
  obtain ⟨history, archive⟩ := Prod.mk.inj seen
  rw [ran, Option.bind_some] at call
  obtain ⟨c, held, parts⟩ := Option.map_eq_some_iff.mp call
  simp only [Prod.mk.injEq] at parts
  obtain ⟨jobName, entries, rest, archived⟩ := parts
  have reachable : (system isoSample {} Unit).Reachable s :=
    TransitionSystem.reachable_of_exec (fun _ => rfl) ran
  have stored : s.Stored "backup.jsonl" juneRun := by
    left
    rw [history]
    decide
  refine ⟨s, _, ran, step_next held (june 0), stored, ?_⟩
  refine ((overlapping_archivers reachable "backup.jsonl" juneRun stored).1 _ _
    (step_next held (june 0))).mpr ⟨(), june 0, c, rfl, held, ⟨rest, ?_⟩, ?_, ?_, ?_⟩
  · rw [archived]
    decide
  · rw [jobName]
    decide +kernel
  · rw [entries]
    decide
  · show juneRun ∉ s.stores.archive.entriesFor "backup"
    rw [archive]
    decide

end Archivers

end Cronwatch.Jobs
