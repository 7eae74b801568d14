/-
# Jobs.ArchiversApart -- archivers that keep off each other's files

The processes are those of `Jobs.OverlappingArchivers`.  They keep apart when no call begins, and no
run is recorded, on a file that a call works on, when no process is stopped in the middle of a call,
and when every finish time can be read (`Apart`).

`archivers_conserve`: then, however the calls of different jobs are interleaved, every entry that
was there or has been recorded is in one of the two stores exactly as often as it should be, save
while a call works on its file.
-/
import Cronwatch.Jobs.OverlappingArchivers
import Mathlib.Data.Fintype.Basic

namespace Cronwatch.Jobs.Archivers

set_option autoImplicit false

open Cronwatch.Theory Cronwatch.Runtime JobArchiver

variable {ρ : Type}

/-- No call works on the file. -/
def Free (s : Archivers ρ) (file : String) : Prop := ∀ p, ∀ c ∈ s.call p, safeFile c.jobName ≠ file

variable (fromisoformat : String → Except PyException ISODateTime) (policy : ArchivePolicy)

/-- The step keeps off the files of the calls under way, and leaves no call in the middle. -/
def Apart (s : Archivers ρ) : Action ρ → Prop
  | .record entry => s.Free (safeFile entry.jobName)
  | .start _ jobName => s.Free (safeFile jobName)
  | .next p now => ∀ c ∈ s.call p, ∀ entry ∈ c.rest.head?,
      ∃ old, shouldArchive fromisoformat policy entry now = .ok old
  | .stop p => s.call p = none

/-- The runs that are recorded. -/
def recorded (actions : List (Action ρ)) : List HistoryEntry :=
  actions.filterMap fun
    | .record entry => some entry
    | _ => none

variable {fromisoformat} {policy}

/-- Where the copies of the entries of a call are, when there should be `total` of each. -/
structure CallAccounts (total : HistoryEntry → Nat) (stores : Stores) (c : ArchiveCall) : Prop where
  read : stores.history.entriesFor c.jobName = c.entries
  unmoved : c.archived = 0 → c.remaining ++ c.rest = c.entries
  within : ∀ entry ∈ c.remaining ++ c.rest, entry ∈ c.entries
  counted : ∀ entry, safeFile c.jobName = safeFile entry.jobName →
    (stores.archive.entriesFor entry.jobName).count entry + (c.remaining ++ c.rest).count entry =
      total entry

/-- Where every copy of every entry is: in the stores, or in the hands of the call on its file. -/
structure Accounts (total : HistoryEntry → Nat) (s : Archivers ρ) : Prop where
  filed : ∀ file, ∀ entry ∈ s.stores.history.files file, safeFile entry.jobName = file
  one : ∀ p q c d, s.call p = some c → s.call q = some d →
    safeFile c.jobName = safeFile d.jobName → p = q
  free : ∀ entry, s.Free (safeFile entry.jobName) → copies entry.jobName entry s.stores = total entry
  called : ∀ p c, s.call p = some c → CallAccounts total s.stores c

variable {total : HistoryEntry → Nat} {s : Archivers ρ}

/-- Before the first call. -/
theorem Accounts.initial (none_ : ∀ p, s.call p = none)
    (filed : ∀ file, ∀ entry ∈ s.stores.history.files file, safeFile entry.jobName = file) :
    Accounts (fun entry => copies entry.jobName entry s.stores) s := by
  have idle : ∀ p c, s.call p ≠ some c := fun p c held => by
    rw [none_ p] at held
    cases held
  exact { filed
          one := fun p _ c _ held => absurd held (idle p c)
          free := fun _ _ => rfl
          called := fun p c held => absurd held (idle p c) }

/-- What a call has read was filed under its file. -/
theorem Accounts.own (accounts : Accounts total s) {p : ρ} {c : ArchiveCall}
    (held : s.call p = some c) {entry : HistoryEntry} (member : entry ∈ c.remaining ++ c.rest) :
    safeFile entry.jobName = safeFile c.jobName := by
  have called := accounts.called p c held
  refine accounts.filed _ entry ?_
  show entry ∈ s.stores.history.entriesFor c.jobName
  rw [called.read]
  exact called.within entry member

/-- A call whose file, and whose entries in the archive, are as before. -/
theorem CallAccounts.frame {total' : HistoryEntry → Nat} {stores stores' : Stores} {c : ArchiveCall}
    (accounts : CallAccounts total stores c)
    (history : stores'.history.files (safeFile c.jobName) = stores.history.files (safeFile c.jobName))
    (archive : ∀ entry, safeFile c.jobName = safeFile entry.jobName →
      (stores'.archive.entriesFor entry.jobName).count entry =
        (stores.archive.entriesFor entry.jobName).count entry ∧ total' entry = total entry) :
    CallAccounts total' stores' c where
  read := history.trans accounts.read
  unmoved := accounts.unmoved
  within := accounts.within
  counted := fun entry here => by
    obtain ⟨same, due⟩ := archive entry here
    rw [same, due]
    exact accounts.counted entry here

theorem count_append (archive : ArchiveStore) (entry e : HistoryEntry) :
    ((archive.append entry).entriesFor e.jobName).count e =
      (archive.entriesFor e.jobName).count e + if entry = e then 1 else 0 := by
  have counted := count_foldl_append [entry] archive e
  rw [List.foldl_cons, List.foldl_nil] at counted
  rw [counted, List.count_singleton]
  simp

theorem count_write (history : HistoryStore) (entry e : HistoryEntry) :
    ((history.write entry.jobName entry).entriesFor e.jobName).count e =
      (history.entriesFor e.jobName).count e + if entry = e then 1 else 0 := by
  by_cases here : safeFile e.jobName = safeFile entry.jobName
  · have written : (history.write entry.jobName entry).entriesFor e.jobName =
        history.entriesFor e.jobName ++ [entry] := by
      show Function.update history.files (safeFile entry.jobName) _ (safeFile e.jobName) =
        history.files (safeFile e.jobName) ++ [entry]
      rw [here, Function.update_self]
      rfl
    rw [written, List.count_append, List.count_singleton]
    simp
  · have same : (history.write entry.jobName entry).entriesFor e.jobName =
        history.entriesFor e.jobName := Function.update_of_ne here ..
    have other : entry ≠ e := fun same => here (by rw [same])
    rw [same, if_neg other, Nat.add_zero]

/-- An entry that is archived goes from what waits to the archive. -/
theorem CallAccounts.archive {stores : Stores} {c : ArchiveCall} {entry : HistoryEntry}
    {rest : List HistoryEntry} (accounts : CallAccounts total stores c) (waits : c.rest = entry :: rest) :
    CallAccounts total { stores with archive := stores.archive.append entry }
      { c with rest, archived := c.archived + 1 } where
  read := accounts.read
  unmoved := fun none_ => absurd none_ (Nat.succ_ne_zero c.archived)
  within := fun e member => by
    refine accounts.within e ?_
    rw [waits]
    rcases List.mem_append.mp member with kept | later
    · exact List.mem_append_left _ kept
    · exact List.mem_append_right _ (List.mem_cons_of_mem entry later)
  counted := fun e here => by
    have due := accounts.counted e here
    rw [waits, List.count_append, List.count_cons] at due
    rw [count_append, List.count_append, ← due]
    simp only [beq_iff_eq]
    omega

/-- An entry that is kept goes from what waits to what remains. -/
theorem CallAccounts.keep {stores : Stores} {c : ArchiveCall} {entry : HistoryEntry}
    {rest : List HistoryEntry} (accounts : CallAccounts total stores c) (waits : c.rest = entry :: rest) :
    CallAccounts total stores { c with rest, remaining := c.remaining ++ [entry] } := by
  have same : c.remaining ++ [entry] ++ rest = c.remaining ++ c.rest := by
    rw [waits, List.append_assoc, List.singleton_append]
  refine ⟨accounts.read, fun none_ => ?_, fun e member => ?_, fun e here => ?_⟩
  · exact same.trans (accounts.unmoved none_)
  · exact accounts.within e (same ▸ member)
  · exact same ▸ accounts.counted e here

/-! ## One step -/

/-- A run that is recorded is one copy more. -/
theorem Accounts.record (accounts : Accounts total s) {entry : HistoryEntry}
    (free : s.Free (safeFile entry.jobName)) :
    Accounts (fun e => total e + if entry = e then 1 else 0)
      { s with stores := { s.stores with history := s.stores.history.write entry.jobName entry } } where
  filed := fun file e member => by
    by_cases here : file = safeFile entry.jobName
    · subst here
      have written := HistoryStore.entriesFor_write entry.jobName entry s.stores.history
      change e ∈ (s.stores.history.write entry.jobName entry).entriesFor entry.jobName at member
      rw [written, List.mem_append, List.mem_singleton] at member
      rcases member with old | rfl
      · exact accounts.filed _ e old
      · rfl
    · have same : (s.stores.history.write entry.jobName entry).files file = s.stores.history.files file :=
        Function.update_of_ne here ..
      exact accounts.filed file e (same ▸ member)
  one := accounts.one
  free := fun e unheld => by
    have before := accounts.free e unheld
    rw [copies] at before ⊢
    rw [count_write, ← before]
    exact Nat.add_right_comm ..
  called := fun p c held => by
    have elsewhere := free p c held
    refine (accounts.called p c held).frame (Function.update_of_ne elsewhere ..) fun e here => ⟨rfl, ?_⟩
    have other : entry ≠ e := fun same => elsewhere (by rw [same]; exact here)
    rw [if_neg other, Nat.add_zero]

variable [DecidableEq ρ]

/-- A call after that of one process is another. -/
theorem held_update {call : ρ → Option ArchiveCall} {p q : ρ} {new : Option ArchiveCall}
    {c : ArchiveCall} (held : Function.update call p new q = some c) :
    (q = p ∧ new = some c) ∨ (q ≠ p ∧ call q = some c) := by
  by_cases own : q = p
  · subst own
    rw [Function.update_self] at held
    exact .inl ⟨rfl, held⟩
  · rw [Function.update_of_ne own] at held
    exact .inr ⟨own, held⟩

/-- A file that is free after a call went on was free before, if that call is not on it. -/
theorem Free.before {p : ρ} {new : Option ArchiveCall} {stores : Stores} {file : String}
    (free : Free { stores, call := Function.update s.call p new } file)
    (mine : ∀ c, s.call p = some c → safeFile c.jobName ≠ file) : s.Free file := by
  intro q c held
  by_cases own : q = p
  · subst own
    exact mine c held
  · exact free q c ((Function.update_of_ne own ..).trans held)

/-- A call that begins has all that it has read before it. -/
theorem Accounts.start (accounts : Accounts total s) {p : ρ} {jobName : String}
    (idle : s.call p = none) (free : s.Free (safeFile jobName)) :
    Accounts total (s.setCall p (some
      { jobName
        entries := s.stores.history.entriesFor jobName
        rest := s.stores.history.entriesFor jobName })) where
  filed := accounts.filed
  one := fun q r c d heldq heldr same => by
    rcases held_update heldq with ⟨rfl, ⟨⟩⟩ | ⟨-, oldq⟩
    · rcases held_update heldr with ⟨rfl, -⟩ | ⟨-, oldr⟩
      · rfl
      · exact absurd same.symm (free r d oldr)
    · rcases held_update heldr with ⟨rfl, ⟨⟩⟩ | ⟨-, oldr⟩
      · exact absurd same (free q c oldq)
      · exact accounts.one q r c d oldq oldr same
  free := fun e unheld => by
    refine accounts.free e (unheld.before fun c held => ?_)
    rw [idle] at held
    cases held
  called := fun q c held => by
    rcases held_update held with ⟨-, ⟨⟩⟩ | ⟨-, old⟩
    · refine ⟨rfl, fun _ => rfl, fun _ member => member, fun e here => ?_⟩
      have due := accounts.free e (here ▸ free)
      have same : s.stores.history.entriesFor jobName = s.stores.history.entriesFor e.jobName :=
        congrArg s.stores.history.files here
      show _ + (s.stores.history.entriesFor jobName).count e = total e
      rw [same, ← due, copies]
      exact Nat.add_comm ..
    · exact accounts.called q c old

/-- A pass of the loop changes neither the history nor what is archived of other files. -/
theorem Accounts.goOn (accounts : Accounts total s) {p : ρ} {c c' : ArchiveCall}
    (held : s.call p = some c) {archive : ArchiveStore}
    (mine : CallAccounts total { s.stores with archive } c') (same : c'.jobName = c.jobName)
    (others : ∀ e, safeFile e.jobName ≠ safeFile c.jobName →
      (archive.entriesFor e.jobName).count e = (s.stores.archive.entriesFor e.jobName).count e) :
    Accounts total { stores := { s.stores with archive }, call := Function.update s.call p (some c') } where
  filed := accounts.filed
  one := fun q r d d' heldq heldr here => by
    rcases held_update heldq with ⟨rfl, ⟨⟩⟩ | ⟨-, oldq⟩
    · rcases held_update heldr with ⟨rfl, -⟩ | ⟨-, oldr⟩
      · rfl
      · exact accounts.one q r c d' held oldr (same ▸ here)
    · rcases held_update heldr with ⟨rfl, ⟨⟩⟩ | ⟨-, oldr⟩
      · exact accounts.one q r d c oldq held (same ▸ here)
      · exact accounts.one q r d d' oldq oldr here
  free := fun e unheld => by
    have elsewhere : safeFile c.jobName ≠ safeFile e.jobName := same ▸ unheld p c' (Function.update_self ..)
    have before := accounts.free e (unheld.before fun d called => by
      rw [held] at called
      cases called
      exact elsewhere)
    rw [← before, copies, copies]
    dsimp only
    rw [others e elsewhere.symm]
  called := fun q d called => by
    rcases held_update called with ⟨-, ⟨⟩⟩ | ⟨other, old⟩
    · exact mine
    · refine (accounts.called q d old).frame rfl fun e here => ⟨others e fun there => ?_, rfl⟩
      exact other (accounts.one q p d c old held (here.trans there))

/-- What the end of a call leaves: its file has what remained of it, whether or not it was replaced. -/
theorem conclude_stores {c : ArchiveCall} (called : CallAccounts total s.stores c) (done : c.rest = [])
    (p : ρ) : ∃ history : HistoryStore,
      s.conclude p c = { stores := { s.stores with history }, call := Function.update s.call p none } ∧
      history.entriesFor c.jobName = c.remaining ∧
      ∀ file, file ≠ safeFile c.jobName → history.files file = s.stores.history.files file := by
  rw [Archivers.conclude]
  by_cases none_ : c.archived = 0
  · have same := called.unmoved none_
    rw [done, List.append_nil] at same
    rw [if_neg (not_not_intro none_)]
    exact ⟨s.stores.history, rfl, called.read.trans same.symm, fun _ _ => rfl⟩
  · rw [if_pos none_]
    exact ⟨_, rfl, HistoryStore.entriesFor_replaceEntries .., fun file other =>
      HistoryStore.replaceEntries_files _ _ _ other⟩

/-- The end of a call puts the rest of what it has read back. -/
theorem Accounts.conclude (accounts : Accounts total s) {p : ρ} {c : ArchiveCall}
    (held : s.call p = some c) (done : c.rest = []) : Accounts total (s.conclude p c) := by
  have called := accounts.called p c held
  obtain ⟨history, whole, remaining, others⟩ := conclude_stores called done p
  rw [whole]
  refine ⟨fun file e member => ?_, fun q r d d' heldq heldr here => ?_, fun e unheld => ?_,
    fun q d called' => ?_⟩
  -- the file of the call has what the call kept, every other file what it had
  · by_cases here : file = safeFile c.jobName
    · subst here
      change e ∈ history.entriesFor c.jobName at member
      rw [remaining] at member
      exact accounts.own held (List.mem_append_left _ member)
    · exact accounts.filed file e (others file here ▸ member)
  · rcases held_update heldq with ⟨-, ⟨⟩⟩ | ⟨-, oldq⟩
    rcases held_update heldr with ⟨-, ⟨⟩⟩ | ⟨-, oldr⟩
    exact accounts.one q r d d' oldq oldr here
  · by_cases here : safeFile c.jobName = safeFile e.jobName
    · have due := called.counted e here
      have put : history.entriesFor e.jobName = c.remaining :=
        (congrArg history.files here.symm).trans remaining
      rw [done, List.append_nil] at due
      rw [← due, copies]
      dsimp only
      rw [put]
      exact Nat.add_comm ..
    · have before := accounts.free e (unheld.before fun d held' => by
        rw [held] at held'
        cases held'
        exact here)
      have files : history.entriesFor e.jobName = s.stores.history.entriesFor e.jobName :=
        others _ (Ne.symm here)
      rw [← before, copies, copies]
      dsimp only
      rw [files]
  · rcases held_update called' with ⟨-, ⟨⟩⟩ | ⟨other, old⟩
    refine (accounts.called q d old).frame (others _ fun here => ?_) fun _ _ => ⟨rfl, rfl⟩
    exact other (accounts.one q p d c old held here)

/-- **A pass of the loop**, or what comes after it. -/
theorem Accounts.advance (accounts : Accounts total s) {p : ρ} {c : ArchiveCall}
    (held : s.call p = some c) {now : DateTime}
    (readable : ∀ entry ∈ c.rest.head?, ∃ old, shouldArchive fromisoformat policy entry now = .ok old) :
    Accounts total (s.advance fromisoformat policy p c now) := by
  have called := accounts.called p c held
  cases waits : c.rest with
  | nil =>
      rw [advance_done waits]
      exact accounts.conclude held waits
  | cons entry rest =>
      obtain ⟨old, answer⟩ := readable entry (by rw [waits]; rfl)
      cases old with
      | true =>
          rw [advance_archived waits answer]
          refine accounts.goOn held (called.archive waits) rfl fun e elsewhere => ?_
          have own : safeFile entry.jobName = safeFile c.jobName := by
            refine accounts.own held (List.mem_append_right _ ?_)
            rw [waits]
            exact List.mem_cons_self
          have other : entry ≠ e := fun same => elsewhere (by rw [← same]; exact own)
          rw [count_append, if_neg other, Nat.add_zero]
      | false =>
          rw [advance_kept waits answer]
          exact accounts.goOn held (called.keep waits) rfl fun _ _ => rfl

/-- **One step** of processes that keep apart. -/
theorem Accounts.step (accounts : Accounts total s) {a : Action ρ} {s' : Archivers ρ}
    (apart : s.Apart fromisoformat policy a)
    (taken : (system fromisoformat policy ρ).step s a = some s') :
    Accounts (fun e => total e + (recorded [a]).count e) s' := by
  change Archivers.step fromisoformat policy s a = some s' at taken
  cases a with
  | record entry =>
      cases taken
      have counts : ∀ e, (recorded [Action.record (ρ := ρ) entry]).count e = if entry = e then 1 else 0 := by
        intro e
        show [entry].count e = _
        rw [List.count_singleton]
        simp only [beq_iff_eq]
      simp only [counts]
      exact accounts.record apart
  | start p jobName =>
      rw [Archivers.step] at taken
      cases idle : s.call p with
      | some c => rw [idle] at taken; cases taken
      | none =>
          rw [idle] at taken
          cases taken
          exact accounts.start idle apart
  | next p now =>
      obtain ⟨c, held, rfl⟩ := Option.map_eq_some_iff.mp taken
      exact accounts.advance held (apart c held)
  | stop p =>
      cases taken
      have same : s.setCall p none = s := by
        rw [setCall, ← show s.call p = none from apart, Function.update_eq_self]
      rw [same]
      exact accounts

/-- **Any interleaving** of processes that keep apart. -/
theorem Accounts.exec (accounts : Accounts total s) {actions : List (Action ρ)} {s' : Archivers ρ}
    (apart : (system fromisoformat policy ρ).Meets (Apart fromisoformat policy) actions s)
    (ran : (system fromisoformat policy ρ).exec actions s = some s') :
    Accounts (fun e => total e + (recorded actions).count e) s' := by
  induction actions generalizing s total with
  | nil =>
      cases ran
      exact accounts
  | cons a rest ih =>
      obtain ⟨s₁, taken, later⟩ := Option.bind_eq_some_iff.mp ran
      have whole : recorded (a :: rest) = recorded [a] ++ recorded rest := by
        rw [recorded, ← List.singleton_append, List.filterMap_append]
        rfl
      have after := ih (accounts.step apart.1 taken) (apart.2 s₁ taken) later
      simp only [whole, List.count_append, ← Nat.add_assoc]
      exact after

/-- **Archivers that keep apart conserve.**  However the calls are interleaved, an entry whose file
no call works on is in the history and in the archive as often, in all, as it was before the first
call and has been recorded since. -/
theorem archivers_conserve {actions : List (Action ρ)} {s' : Archivers ρ}
    (none_ : ∀ p, s.call p = none)
    (filed : ∀ file, ∀ entry ∈ s.stores.history.files file, safeFile entry.jobName = file)
    (apart : (system fromisoformat policy ρ).Meets (Apart fromisoformat policy) actions s)
    (ran : (system fromisoformat policy ρ).exec actions s = some s') (entry : HistoryEntry)
    (free : s'.Free (safeFile entry.jobName)) :
    copies entry.jobName entry s'.stores =
      copies entry.jobName entry s.stores + (recorded actions).count entry :=
  ((Accounts.initial none_ filed).exec apart ran).free entry free

instance decidableFree [Fintype ρ] (s : Archivers ρ) (file : String) : Decidable (s.Free file) :=
  inferInstanceAs (Decidable (∀ p, ∀ c ∈ s.call p, safeFile c.jobName ≠ file))

instance decidableApart [Fintype ρ] (s : Archivers ρ) :
    ∀ a, Decidable (s.Apart fromisoformat policy a)
  | .record entry => decidableFree s (safeFile entry.jobName)
  | .start _ jobName => decidableFree s (safeFile jobName)
  | .next p now => inferInstanceAs (Decidable (∀ c ∈ s.call p, ∀ entry ∈ c.rest.head?,
      ∃ old, shouldArchive fromisoformat policy entry now = .ok old))
  | .stop p => inferInstanceAs (Decidable (s.call p = none))

def etlRun : HistoryEntry := { oldRun with jobName := "etl" }

/-- Archivers of two jobs that take turns. -/
def turns : List (Action Bool) :=
  [.record etlRun, .start true "backup", .start false "etl", .next true (june 0), .next false (june 0),
    .next true (june 0), .next false (june 0), .next true (june 0)]

theorem turns_conserve :
    ∃ s' : Archivers Bool, (system isoSample {} Bool).exec turns { stores := twoRuns } = some s' ∧
      copies "backup" oldRun s'.stores = copies "backup" oldRun twoRuns ∧
      copies "etl" etlRun s'.stores = copies "etl" etlRun twoRuns + 1 := by
  have filed : ∀ file, ∀ entry ∈ twoRuns.history.files file, safeFile entry.jobName = file := by
    intro file entry member
    have files : twoRuns.history.files file = if file = "backup.jsonl" then [oldRun, recentRun] else [] := rfl
    have name : safeFile "backup" = "backup.jsonl" := by decide +kernel
    rw [files] at member
    split at member
    · rename_i here
      rw [here, ← name]
      rcases List.mem_cons.mp member with rfl | last
      · rfl
      · rw [List.mem_singleton.mp last]
        rfl
    · cases member
  have apart : (system isoSample {} Bool).Meets (Apart isoSample {}) turns { stores := twoRuns } := by
    decide +kernel
  have returns : ((system isoSample {} Bool).exec turns { stores := twoRuns }).any
      (fun s' => (s'.call true).isNone && (s'.call false).isNone) = true := by
    decide +kernel
  obtain ⟨s', ran, idle⟩ := (Option.any_eq_true _ _).mp returns
  have free : ∀ file, s'.Free file := by
    rw [Bool.and_eq_true, Option.isNone_iff_eq_none, Option.isNone_iff_eq_none] at idle
    rintro file (_ | _) c held
    · rw [idle.2] at held
      cases held
    · rw [idle.1] at held
      cases held
  have conserve := fun entry => archivers_conserve (fun _ => rfl) filed apart ran entry (free _)
  exact ⟨s', ran, conserve oldRun, conserve etlRun⟩

end Cronwatch.Jobs.Archivers
