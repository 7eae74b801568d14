/-
# Silence.SilenceFiles -- the files of the three stores of silence, when a process stops

Each store keeps all its entries in one JSON file, an object of records under the names of the jobs,
and rewrites it in place.  A `MuteStore` and a `SuppressionStore` read it at every call, and the
exception of `json.load` passes through; a `PauseStore` reads it when it is made, and raises a
`RuntimeError` then.

So a process that stops while it saves leaves a store that never works again, whatever is called,
until somebody removes the file.  Short of that a store answers as if nothing had happened
(`right_or_unreadable`).

A text is cut between tokens.  A document that no store writes is taken as one that cannot be read.
-/
import Cronwatch.Runtime.Json
import Cronwatch.Silence.Agreement
import Cronwatch.Theory.TextStore

namespace Cronwatch.Silence

set_option autoImplicit false

open Cronwatch.Theory Cronwatch.Theory.ExpiringMap Cronwatch.Runtime
open Cronwatch.Theory.Json (Token)

/-- The text of a file, if there is one. -/
abbrev Disk := Option (List (Token Number))

/-! ## Records as JSON -/

/-- How a record stands in the file: texts and nulls under names. -/
structure Form (ρ : Type) where
  fields : ρ → List (String × Option String)
  ofFields : List (String × Option String) → Option ρ
  distinct : ∀ data, ((fields data).map Prod.fst).Nodup
  back : ∀ data, ofFields (fields data) = some data

def textOrNone : Option String → PyValue
  | none => .none
  | some s => .str s

def field? : Key × PyValue → Option (String × Option String)
  | (.str name, .str s) => some (name, some s)
  | (.str name, .none) => some (name, none)
  | _ => none

theorem mapM_field? (fields : List (String × Option String)) :
    (fields.map fun e => (Key.str e.1, textOrNone e.2)).mapM field? = some fields := by
  induction fields with
  | nil => rfl
  | cons e rest ih =>
      obtain ⟨name, value⟩ := e
      rw [List.map_cons, List.mapM_cons, ih]
      cases value <;> rfl

namespace Form

variable {ρ : Type} (form : Form ρ)

def value (data : ρ) : PyValue := .dict ((form.fields data).map fun e => (.str e.1, textOrNone e.2))

def rows (raw : Dict String ρ) : PyValue := .dict (raw.entries.map fun e => (.str e.1, form.value e.2))

def row? : Key × PyValue → Option (String × ρ)
  | (.str name, .dict entries) => ((entries.mapM field?).bind form.ofFields).map fun data => (name, data)
  | _ => none

def rows? : PyValue → Option (Dict String ρ)
  | .dict entries => (entries.mapM form.row?).map fun rows => rows.foldl (fun d e => d.set e.1 e.2) .empty
  | _ => none

/-- What `json.dump` writes. -/
def text (raw : Dict String ρ) : List (Token Number) := (form.rows raw).dump.tokens

/-- What `json.load` reads; `none` is a text that it does not read, and `some none` no file. -/
def read : Disk → Option (Option (Dict String ρ))
  | none => some none
  | some text =>
      match Json.parse text with
      | none => none
      | some j => (form.rows? (ofJson j)).map some

variable {form}

theorem mapM_row? (entries : List (String × ρ)) :
    (entries.map fun e => (Key.str e.1, form.value e.2)).mapM form.row? = some entries := by
  induction entries with
  | nil => rfl
  | cons e rest ih =>
      rw [List.map_cons, List.mapM_cons, ih, value, row?, mapM_field?, Option.bind_some, form.back]
      rfl

theorem rows?_rows (raw : Dict String ρ) : form.rows? (form.rows raw) = some raw := by
  rw [rows, rows?, mapM_row?, Option.map_some]
  exact congrArg some (Dict.eq_of_entries (Dict.entries_foldl_set .empty raw.keysNodup))

theorem native_value (data : ρ) : (form.value data).Native := by
  refine native_members textOrNone (fun e _ => ?_) (form.distinct data)
  cases e.2 <;> exact trivial

theorem native_rows (form : Form ρ) (raw : Dict String ρ) : (form.rows raw).Native :=
  native_members form.value (fun e _ => native_value e.2) raw.keysNodup

/-- What was written is read. -/
theorem read_text (raw : Dict String ρ) : form.read (some (form.text raw)) = some (some raw) := by
  obtain ⟨-, j, parsed, back⟩ := native_roundTrip (form.native_rows raw)
  rw [read, text, parsed]
  dsimp only
  rw [back, rows?_rows]
  rfl

/-- No part of it is. -/
theorem read_of_cut {raw : Dict String ρ} {part rest : List (Token Number)}
    (cut : part ++ rest = form.text raw) (more : rest ≠ []) : form.read (some part) = none := by
  obtain ⟨j, encoded, -⟩ := native_returns _ (form.native_rows raw)
  rw [text, dump_of_encode _ j encoded] at cut
  rw [read, Json.parse_of_cut cut more]

/-- A store that loads these records, and saves what it has of them. -/
def kept {σ : Type} (form : Form ρ) (load : Option (Dict String ρ) → Option σ)
    (file : σ → Option (Dict String ρ)) (write : Op → σ → Option σ)
    (back : ∀ {loaded s o s'}, load loaded = some s → write o s = some s' →
      ∃ raw, file s' = some raw ∧ load (some raw) = some s') :
    TextStore (Token Number) σ Op where
  read disk := (form.read disk).bind load
  write := write
  text s := form.text ((file s).getD .empty)
  whole := by
    intro disk s o s' held written
    obtain ⟨loaded, -, loads⟩ := Option.bind_eq_some_iff.mp held
    obtain ⟨raw, saved, again⟩ := back loads written
    rw [saved, Option.getD_some, read_text, Option.bind_some, again]
  cut := by
    intro s part rest cut more
    rw [read_of_cut cut more, Option.bind_none]

end Form

/-! ## The stores on their files -/

namespace MuteStore

/-- `to_dict` and `from_dict`, up to the times. -/
def form : Form MuteRecord where
  fields data := [("job_name", some data.jobName), ("muted_at", some data.mutedAt),
    ("muted_until", data.mutedUntil), ("reason", some data.reason)]
  ofFields fields :=
    match fields.lookup "job_name", fields.lookup "muted_at", fields.lookup "reason" with
    | some (some jobName), some (some mutedAt), some (some reason) =>
        some { jobName, mutedAt, mutedUntil := (fields.lookup "muted_until").join, reason }
    | some (some jobName), some (some mutedAt), none =>
        some { jobName, mutedAt, mutedUntil := (fields.lookup "muted_until").join, reason := "" }
    | _, _, _ => none
  distinct _ := by simp
  back _ := rfl

variable (iso : IsoFormat)

/-- What an operation saves; a call that raises saves nothing. -/
def write : Op → MuteStore → Option MuteStore
  | .set jobName until_ reason at_, s =>
      (s.mute iso { jobName, mutedAt := at_, mutedUntil := until_, reason }).toOption
  | .clear jobName, s => (s.unmute iso jobName).toOption
  | .query _ _, _ | .purge _, _ | .reopen _, _ => none

theorem file_of_write {s s' : MuteStore} {o : Op} (written : s.write iso o = some s') :
    ∃ raw, s' = { file := some raw } := by
  cases o with
  | set jobName until_ reason at_ =>
      rw [write, MuteStore.mute] at written
      cases loaded : s.load iso with
      | error e => rw [loaded] at written; cases written
      | ok entries => rw [loaded] at written; cases written; exact ⟨_, rfl⟩
  | clear jobName =>
      rw [write, MuteStore.unmute] at written
      cases loaded : s.load iso with
      | error e => rw [loaded] at written; cases written
      | ok entries => rw [loaded] at written; cases written; exact ⟨_, rfl⟩
  | query _ _ | purge _ | reopen _ => cases written

def kept : TextStore (Token Number) MuteStore Op :=
  form.kept (fun file => some { file }) MuteStore.file (write iso) fun _ written => by
    obtain ⟨raw, rfl⟩ := file_of_write iso written
    exact ⟨raw, rfl, rfl⟩

/-- `is_muted` of a store on this file. -/
def answer (disk : Disk) (jobName : String) (now : DateTime) : Except PyException Bool :=
  match (kept iso).read disk with
  | none => .error jsonDecodeError
  | some s => s.isMuted iso jobName now

end MuteStore

namespace SuppressionStore

/-- `asdict` and `SuppressionEntry(**entry)`. -/
def form : Form SuppressionEntry where
  fields data := [("job_name", some data.jobName), ("reason", some data.reason),
    ("suppressed_at", some data.suppressedAt), ("expires_at", data.expiresAt)]
  ofFields fields :=
    match fields.lookup "job_name", fields.lookup "reason", fields.lookup "suppressed_at" with
    | some (some jobName), some (some reason), some (some suppressedAt) =>
        some { jobName, reason, suppressedAt, expiresAt := (fields.lookup "expires_at").join }
    | _, _, _ => none
  distinct _ := by simp
  back _ := rfl

variable (iso : IsoFormat)

def write : Op → SuppressionStore → Option SuppressionStore
  | .set jobName until_ reason at_, s => some (s.suppress iso jobName reason until_ at_).2
  | .clear jobName, s => if (s.load.get? jobName).isSome then some (s.release jobName).2 else none
  | .purge now, s => (s.purgeExpired iso now).toOption.map Prod.snd
  | .query _ _, _ | .reopen _, _ => none

theorem file_of_write {s s' : SuppressionStore} {o : Op} (written : s.write iso o = some s') :
    ∃ raw, s' = { file := some raw } := by
  cases o with
  | set jobName until_ reason at_ =>
      cases written
      exact ⟨_, rfl⟩
  | clear jobName =>
      rw [write, SuppressionStore.release] at written
      split at written
      · cases written
        exact ⟨_, rfl⟩
      · cases written
  | purge now =>
      rw [write, purgeExpired] at written
      cases filtered : s.load.filterM fun _ entry => entry.isActive iso now with
      | error e => rw [filtered] at written; cases written
      | ok data => rw [filtered] at written; cases written; exact ⟨_, rfl⟩
  | query _ _ | reopen _ => cases written

def kept : TextStore (Token Number) SuppressionStore Op :=
  form.kept (fun file => some { file }) SuppressionStore.file (write iso) fun _ written => by
    obtain ⟨raw, rfl⟩ := file_of_write iso written
    exact ⟨raw, rfl, rfl⟩

/-- `is_suppressed` of a store on this file. -/
def answer (disk : Disk) (jobName : String) (now : DateTime) : Except PyException Bool :=
  match (kept iso).read disk with
  | none => .error jsonDecodeError
  | some s => s.isSuppressed iso jobName now

end SuppressionStore

namespace PauseStore

/-- The records of `_save` and `_load`, up to the times. -/
def form : Form PauseRecord where
  fields data := [("paused_at", some data.pausedAt), ("reason", data.reason), ("resume_at", data.resumeAt)]
  ofFields fields :=
    match fields.lookup "paused_at" with
    | some (some pausedAt) =>
        some { pausedAt, reason := (fields.lookup "reason").join
               resumeAt := (fields.lookup "resume_at").join }
    | _ => none
  distinct _ := by simp
  back _ := rfl

theorem jobName_of_ofRecord {iso : IsoFormat} {name : String} {data : PauseRecord} {entry : PauseEntry}
    (made : PauseEntry.ofRecord iso name data = .ok entry) : entry.jobName = name := by
  rw [PauseEntry.ofRecord] at made
  split at made
  · cases made
  · split at made
    · cases made
    · cases made
      rfl

/-- The exception of `_load`; where the text breaks off is left out. -/
def loadError (statePath : String) : PyException :=
  .foreign s!"RuntimeError: Failed to load pause state from {statePath}: Expecting value"

variable (iso : IsoFormat)

/-- `PauseStore(state_path)`. -/
def opened (statePath : String) (disk : Disk) : Except PyException PauseStore :=
  match form.read disk with
  | none => .error (loadError statePath)
  | some file => load iso file

/-- What an operation of a store that has this in memory saves. -/
def write : Op → PauseStore → Option PauseStore
  | .set jobName until_ reason at_, s => some (s.pause iso at_ jobName (some reason) until_).2
  | .clear jobName, s => if (s.entries.get? jobName).isSome then some (s.resume iso jobName).2 else none
  | .query jobName now, s =>
      if (s.entries.get? jobName).any (·.isExpired now) then some (s.isPaused iso jobName now).2 else none
  | .purge _, _ | .reopen _, _ => none

/-- Every entry is under its own name. -/
def Named (entries : Dict String PauseEntry) : Prop :=
  ∀ k entry, entries.get? k = some entry → entry.jobName = k

theorem named_of_load {file : Option (Dict String PauseRecord)} {s : PauseStore}
    (loaded : load iso file = .ok s) : Named s.entries := by
  intro k entry held
  cases file with
  | none =>
      cases loaded
      cases held
  | some raw =>
      rw [load] at loaded
      cases made : raw.mapEntriesM (PauseEntry.ofRecord iso) with
      | error e => rw [made] at loaded; cases loaded
      | ok entries =>
          rw [made] at loaded
          cases loaded
          obtain ⟨data, -, is⟩ := (Dict.get?_mapEntriesM made k entry).mp held
          exact jobName_of_ofRecord is

theorem Named.set {entries : Dict String PauseEntry} (named : Named entries) (entry : PauseEntry) :
    Named (entries.set entry.jobName entry) := by
  intro k other held
  rw [Dict.get?_set] at held
  split at held
  · rename_i same
    cases held
    exact same.symm
  · exact named k other held

theorem Named.erase {entries : Dict String PauseEntry} (named : Named entries) (jobName : String) :
    Named (entries.erase jobName) := by
  intro k entry held
  rw [Dict.get?_erase] at held
  split at held
  · cases held
  · exact named k entry held

/-- What is saved is loaded as it was. -/
theorem load_save {s : PauseStore} (named : Named s.entries) :
    load iso (s.save iso).file = .ok (s.save iso) :=
  have keeps : (s.save iso).Keeps iso 0 fun k => (s.entries.get? k).map PauseEntry.resumeAt :=
    ⟨.inr rfl, named, .refl _ _⟩
  keeps.load

theorem write_saves {s s' : PauseStore} {o : Op} (named : Named s.entries)
    (written : s.write iso o = some s') :
    ∃ entries, Named entries ∧ s' = ({ s with entries } : PauseStore).save iso := by
  cases o with
  | set jobName until_ reason at_ =>
      cases written
      exact ⟨_, named.set { jobName, pausedAt := at_, reason, resumeAt := until_ }, rfl⟩
  | clear jobName =>
      rw [write, PauseStore.resume] at written
      split at written
      · cases written
        exact ⟨_, named.erase jobName, rfl⟩
      · cases written
  | query jobName now =>
      rw [write] at written
      split at written
      · rename_i expired
        cases written
        rw [PauseStore.isPaused]
        cases held : s.entries.get? jobName with
        | none => rw [held] at expired; cases expired
        | some entry =>
            rw [held, Option.any_some] at expired
            dsimp only
            rw [if_pos expired]
            exact ⟨_, named.erase jobName, rfl⟩
      · cases written
  | purge _ | reopen _ => cases written

/-- What a store has behind an operation. -/
def next (s : PauseStore) (o : Op) : PauseStore := (s.write iso o).getD s

/-- What is in memory is what is in the file. -/
theorem load_next {s : PauseStore} (opens : load iso s.file = .ok s) (o : Op) :
    load iso (s.next iso o).file = .ok (s.next iso o) := by
  rw [next]
  cases written : s.write iso o with
  | none => exact opens
  | some s' =>
      obtain ⟨entries, named, rfl⟩ := write_saves iso (named_of_load iso opens) written
      exact load_save iso named

/-- The file of a store, which is made anew for every operation. -/
def kept : TextStore (Token Number) (Option (Dict String PauseRecord)) Op :=
  form.kept some id
    (fun o file =>
      match load iso file with
      | .error _ => none
      | .ok s => (s.write iso o).map PauseStore.file)
    fun {_ file o file'} _ written => by
      cases opened : load iso file with
      | error e => rw [opened] at written; cases written
      | ok s =>
          rw [opened] at written
          obtain ⟨s', written', rfl⟩ := Option.map_eq_some_iff.mp written
          obtain ⟨entries, -, rfl⟩ := write_saves iso (named_of_load iso opened) written'
          exact ⟨_, rfl, rfl⟩

theorem after_file {s : PauseStore} (opens : load iso s.file = .ok s) (o : Op) :
    (kept iso).after s.file o = (s.next iso o).file := by
  show Option.getD (match load iso s.file with
    | .error _ => none
    | .ok s => (s.write iso o).map PauseStore.file) s.file = _
  rw [opens, next]
  show ((s.write iso o).map PauseStore.file).getD s.file = _
  cases s.write iso o <;> rfl

/-- **One store through the operations** is one made anew for each of them. -/
theorem load_foldl {s : PauseStore} (opens : load iso s.file = .ok s) (ops : List Op) :
    load iso (ops.foldl (kept iso).after s.file) = .ok (ops.foldl (next iso) s) := by
  induction ops generalizing s with
  | nil => exact opens
  | cons o rest ih =>
      rw [List.foldl_cons, List.foldl_cons, after_file iso opens]
      exact ih (load_next iso opens o)

/-- `is_paused` of a store that is made on this file. -/
def answer (statePath : String) (disk : Disk) (jobName : String) (now : DateTime) : Except PyException Bool :=
  (opened iso statePath disk).map fun s => (s.isPaused iso jobName now).1

end PauseStore

/-! ## The stores beside each other -/

variable (iso : IsoFormat)

theorem SuppressionStore.after_clear (s : SuppressionStore) (jobName : String) :
    (SuppressionStore.kept iso).after s (.clear jobName) = (s.release jobName).2 := by
  show (SuppressionStore.write iso (.clear jobName) s).getD s = _
  rw [SuppressionStore.write, SuppressionStore.release]
  split <;> rfl

theorem PauseStore.next_clear (s : PauseStore) (jobName : String) :
    s.next iso (.clear jobName) = (s.resume iso jobName).2 := by
  rw [PauseStore.next, PauseStore.write, PauseStore.resume]
  split <;> rfl

theorem PauseStore.next_query (s : PauseStore) (jobName : String) (now : DateTime) :
    s.next iso (.query jobName now) = (s.isPaused iso jobName now).2 := by
  rw [PauseStore.next, PauseStore.write, PauseStore.isPaused]
  cases s.entries.get? jobName with
  | none => rfl
  | some entry =>
      rw [Option.any_some]
      dsimp only
      split <;> rfl

/-- **One operation** on all stores is one on each of them. -/
theorem files_of_step {s s' : Stores} {op : Op} (opens : PauseStore.load iso s.pause.file = .ok s.pause)
    (stepped : s.step iso op = .ok s') :
    s'.mute = (MuteStore.kept iso).after s.mute op ∧
      s'.suppression = (SuppressionStore.kept iso).after s.suppression op ∧
        s'.pause = s.pause.next iso op := by
  cases op with
  | set jobName until_ reason at_ =>
      rw [Stores.step, Stores.set] at stepped
      cases done : s.mute.mute iso { jobName, mutedAt := at_, mutedUntil := until_, reason } with
      | error e => rw [done] at stepped; cases stepped
      | ok mute =>
          rw [done] at stepped
          cases stepped
          refine ⟨?_, rfl, rfl⟩
          show mute = (s.mute.mute iso _).toOption.getD s.mute
          rw [done]
          rfl
  | clear jobName =>
      rw [Stores.step, Stores.clear] at stepped
      cases done : s.mute.unmute iso jobName with
      | error e => rw [done] at stepped; cases stepped
      | ok mute =>
          rw [done] at stepped
          cases stepped
          refine ⟨?_, (SuppressionStore.after_clear iso _ _).symm, (PauseStore.next_clear iso _ _).symm⟩
          show mute = (s.mute.unmute iso jobName).toOption.getD s.mute
          rw [done]
          rfl
  | query jobName now =>
      rw [Stores.step, Stores.query] at stepped
      cases muted : s.mute.isMuted iso jobName now with
      | error e => rw [muted] at stepped; cases stepped
      | ok muted_ =>
          cases suppressed : s.suppression.isSuppressed iso jobName now with
          | error e => rw [muted, suppressed] at stepped; cases stepped
          | ok suppressed_ =>
              rw [muted, suppressed] at stepped
              cases stepped
              exact ⟨rfl, rfl, (PauseStore.next_query iso _ _ _).symm⟩
  | purge now =>
      rw [Stores.step, Stores.purge] at stepped
      cases purged : s.suppression.purgeExpired iso now with
      | error e => rw [purged] at stepped; cases stepped
      | ok both =>
          rw [purged] at stepped
          cases stepped
          refine ⟨rfl, ?_, rfl⟩
          show both.2 = ((s.suppression.purgeExpired iso now).toOption.map Prod.snd).getD s.suppression
          rw [purged]
          rfl
  | reopen store =>
      cases store with
      | mute | suppression =>
          cases stepped
          exact ⟨rfl, rfl, rfl⟩
      | pause =>
          rw [Stores.step, Stores.reopen, opens] at stepped
          cases stepped
          exact ⟨rfl, rfl, rfl⟩

theorem files_of_run {s s' : Stores} {ops : List Op} (opens : PauseStore.load iso s.pause.file = .ok s.pause)
    (ran : Stores.run iso ops s = .ok s') :
    s'.mute = ops.foldl (MuteStore.kept iso).after s.mute ∧
      s'.suppression = ops.foldl (SuppressionStore.kept iso).after s.suppression ∧
        s'.pause = ops.foldl (PauseStore.next iso) s.pause := by
  induction ops generalizing s with
  | nil =>
      cases ran
      exact ⟨rfl, rfl, rfl⟩
  | cons op rest ih =>
      rw [Stores.run] at ran
      cases stepped : s.step iso op with
      | error e => rw [stepped] at ran; cases ran
      | ok s₁ =>
          rw [stepped] at ran
          obtain ⟨mute, suppression, pause⟩ := files_of_step iso opens stepped
          have opens₁ : PauseStore.load iso s₁.pause.file = .ok s₁.pause := by
            rw [pause]
            exact PauseStore.load_next iso opens op
          have later := ih opens₁ ran
          rw [mute, suppression, pause] at later
          exact later

/-! ## Right or unreadable -/

/-- Answers of a store whose file is `disk` after these events, or its exception. -/
structure RightOrUnreadable (disk : List (Saver.Event Op) → Disk)
    (answer : Disk → String → DateTime → Except PyException Bool) (failure : PyException) : Prop where
  /-- The events have become completed operations, and queries in order of time are answered as if
  nothing else had been; or one has become a loss, and nothing ever changes the file or answers. -/
  runs : ∀ events, ∃ stories, List.Forall₂ Saver.Lived events stories ∧
    ((none ∈ stories.flatten ∧ ∀ more, disk (events ++ more) = disk events ∧
        ∀ jobName now, answer (disk (events ++ more)) jobName now = .error failure) ∨
      ∃ ops : List Op, stories.flatten = ops.map some ∧
        ∀ jobName now, Nondecreasing (ops ++ [.query jobName now]) →
          ∃ silent, answer (disk events) jobName now = .ok silent ∧
            (silent = true ↔ Silenced ops jobName now))
  /-- An operation that writes is lost by a stop between the opening of the file and the last token
  but one. -/
  stops : ∀ events op, (∀ n, disk (events ++ [.stopped op n]) = disk events) ∨
    ∃ text : List (Token Number), disk (events ++ [.done op]) = some text ∧
      ∀ n, disk (events ++ [.stopped op n]) = (if n = 0 then disk events else some (text.take (n - 1))) ∧
        (0 < n → n ≤ text.length → ∀ jobName now,
          answer (disk (events ++ [.stopped op n])) jobName now = .error failure)

theorem RightOrUnreadable.of_kept {σ : Type} {store : TextStore (Token Number) σ Op} {s : σ}
    {answer : Disk → String → DateTime → Except PyException Bool} {failure : PyException}
    (start : store.read none = some s)
    (fails : ∀ disk, store.read disk = none → ∀ jobName now, answer disk jobName now = .error failure)
    (right : ∀ ops disk, store.read disk = some (ops.foldl store.after s) →
      ∀ jobName now, Nondecreasing (ops ++ [.query jobName now]) →
        ∃ silent, answer disk jobName now = .ok silent ∧ (silent = true ↔ Silenced ops jobName now)) :
    RightOrUnreadable (fun events => (store.lived none events).disk) answer failure where
  runs := by
    intro events
    obtain ⟨stories, became, ⟨loss, unread, same⟩ | ⟨ops, are, read⟩⟩ := store.life start events
    · refine ⟨stories, became, .inl ⟨loss, fun more => ?_⟩⟩
      rw [same more]
      exact ⟨rfl, fails _ unread⟩
    · exact ⟨stories, became, .inr ⟨ops, are, right ops _ read⟩⟩
  stops := by
    intro events op
    rcases store.stopped_disk none events op with same | ⟨text, done, -, stopped⟩
    · exact .inl fun n => by rw [same n]
    · refine .inr ⟨text, done, fun n => ⟨(stopped n).1, fun begun early => ?_⟩⟩
      exact fails _ (((stopped n).2 begun).mpr early)

/-- Ordered operations run on all three stores, which keep what holds then. -/
theorem tracks_of_nondecreasing {ops : List Op} {jobName : String} {now : DateTime}
    (ordered : Nondecreasing (ops ++ [.query jobName now])) :
    ∃ s, Stores.run iso ops {} = .ok s ∧ Tracks iso now (ends ops) s := by
  unfold Nondecreasing at ordered
  rw [List.filterMap_append, List.filterMap_cons_some (show (Op.query jobName now).time? = some now
    from rfl)] at ordered
  obtain ⟨early, -, cross⟩ := List.pairwise_append.mp ordered
  have upto : ∀ t ∈ ops.filterMap Op.time?, t ≤ now := fun t member => cross t member now List.mem_cons_self
  have from_ : ∃ start ≤ now, (start :: ops.filterMap Op.time?).Pairwise (· ≤ ·) := by
    cases times : ops.filterMap Op.time? with
    | nil => exact ⟨now, le_rfl, List.pairwise_singleton _ _⟩
    | cons t rest =>
        rw [times] at early upto
        refine ⟨t, upto t List.mem_cons_self, List.pairwise_cons.mpr ⟨fun t' member => ?_, early⟩⟩
        rcases List.mem_cons.mp member with rfl | later
        · exact le_rfl
        · exact (List.pairwise_cons.mp early).1 t' later
  obtain ⟨start, le, orderedFrom⟩ := from_
  obtain ⟨last, s, ran, tracks, bound⟩ := (Tracks.start iso start).run orderedFrom
  refine ⟨s, ran, tracks.wait (bound now fun t member => ?_)⟩
  rcases List.mem_cons.mp member with rfl | among
  · exact le
  · exact upto t among

section ByStore

variable (statePath : String)

/-- The file of a store after these events; there was none at first. -/
def disk (which : StoreName) (events : List (Saver.Event Op)) : Disk :=
  match which with
  | .mute => ((MuteStore.kept iso).lived none events).disk
  | .suppression => ((SuppressionStore.kept iso).lived none events).disk
  | .pause => ((PauseStore.kept iso).lived none events).disk

/-- Whether the job is silenced, for who has this file. -/
def answer : StoreName → Disk → String → DateTime → Except PyException Bool
  | .mute => MuteStore.answer iso
  | .suppression => SuppressionStore.answer iso
  | .pause => PauseStore.answer iso statePath

/-- What a store with a file that cannot be read raises. -/
def failure : StoreName → PyException
  | .mute | .suppression => jsonDecodeError
  | .pause => PauseStore.loadError statePath

/-- **Right or unreadable.**  Each of the three stores, through any operations and stops at any step
of them, from no file on: it answers from the operations that were completed, as all three mean it,
or a save was cut short, and then it raises its exception for ever. -/
theorem right_or_unreadable (which : StoreName) :
    RightOrUnreadable (disk iso which) (answer iso statePath which) (failure statePath which) := by
  have files := fun {ops : List Op} {s : Stores} (ran : Stores.run iso ops {} = .ok s) =>
    files_of_run iso rfl ran
  cases which with
  | mute =>
      refine .of_kept (s := {}) rfl (fun _ unread jobName now => ?_) fun ops _ read jobName now ordered => ?_
      · show MuteStore.answer iso _ jobName now = _
        rw [MuteStore.answer, unread]
        rfl
      · obtain ⟨s, ran, tracks⟩ := tracks_of_nondecreasing iso ordered
        obtain ⟨silent, asked, means⟩ := tracks.mute.isMuted jobName now
        refine ⟨silent, ?_, means.trans (silenced_iff ops jobName now).symm⟩
        show MuteStore.answer iso _ jobName now = _
        rw [MuteStore.answer, read, ← (files ran).1]
        exact asked
  | suppression =>
      refine .of_kept (s := {}) rfl (fun _ unread jobName now => ?_) fun ops _ read jobName now ordered => ?_
      · show SuppressionStore.answer iso _ jobName now = _
        rw [SuppressionStore.answer, unread]
        rfl
      · obtain ⟨s, ran, tracks⟩ := tracks_of_nondecreasing iso ordered
        obtain ⟨silent, asked, means⟩ := tracks.suppression.isSuppressed jobName
        refine ⟨silent, ?_, means.trans (silenced_iff ops jobName now).symm⟩
        show SuppressionStore.answer iso _ jobName now = _
        rw [SuppressionStore.answer, read, ← (files ran).2.1]
        exact asked
  | pause =>
      refine .of_kept (s := none) rfl (fun _ unread jobName now => ?_) fun ops _ read jobName now ordered => ?_
      · have torn := (Option.bind_fun_some _).symm.trans unread
        show PauseStore.answer iso statePath _ jobName now = _
        rw [PauseStore.answer, PauseStore.opened, torn]
        rfl
      · have held := (Option.bind_fun_some _).symm.trans read
        obtain ⟨s, ran, tracks⟩ := tracks_of_nondecreasing iso ordered
        refine ⟨_, ?_, (tracks.pause.isPaused jobName).1.trans (silenced_iff ops jobName now).symm⟩
        show PauseStore.answer iso statePath _ jobName now = _
        rw [PauseStore.answer, PauseStore.opened, held]
        dsimp only
        rw [PauseStore.load_foldl iso (s := {}) rfl, ← (files ran).2.2]
        rfl

end ByStore

end Cronwatch.Silence
