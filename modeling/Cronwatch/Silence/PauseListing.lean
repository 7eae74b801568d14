/-
# Silence.PauseListing -- the listing of a pause store beside its answers

`is_paused` deletes an entry that it finds over.  `get` and `all_paused` read the entries
as they are, so what they show depends on which queries came before.

An entry is in force in the sense of `Theory.inForce`: a pause starts it, and a resume, a
pause in its place or a query that finds it over ends it (`endings_run`).  From this,
`listingAgrees_iff`: after any operations, the listing and the answer agree on a job exactly
when each of its pauses whose time has come was ended.  The other two stores ask every entry
that they list, as `MuteStore.allActive_agrees` says of one.
-/
import Cronwatch.Silence.Agreement
import Cronwatch.Theory.Splits

namespace Cronwatch.Silence

set_option autoImplicit false

open Cronwatch.Theory Cronwatch.Theory.ExpiringMap Cronwatch.Runtime

/-- An operation on a pause store, or the store made anew on its file; `utcnow` is the clock
where an entry is made. -/
inductive PauseOp where
  | pause (jobName : String) (reason : Option String) (resumeAt : Option DateTime)
      (utcnow : DateTime)
  | resume (jobName : String)
  | isPaused (jobName : String) (now : DateTime)
  | reopen
deriving DecidableEq

namespace PauseOp

/-- The end, if any, of the entry that the operation makes for the job. -/
def starts (jobName : String) : PauseOp → Option (Option DateTime)
  | .pause job _ resumeAt _ => if job = jobName then some resumeAt else none
  | .resume _ | .isPaused _ _ | .reopen => none

/-- The operation leaves no entry of the job that ends then. -/
def Ends (jobName : String) (resumeAt : DateTime) : PauseOp → Prop
  | .pause job _ _ _ | .resume job => job = jobName
  | .isPaused job now => job = jobName ∧ resumeAt ≤ now
  | .reopen => False

/-- The operation deletes an entry of the job. -/
def deletes (jobName : String) (ending : Option DateTime) : PauseOp → Bool
  | .resume job => job = jobName
  | .isPaused job now => job = jobName ∧ ¬ Open ending now
  | .pause _ _ _ _ | .reopen => false

theorem starts_eq_some_iff (jobName : String) (ending : Option DateTime) (op : PauseOp) :
    op.starts jobName = some ending ↔
      ∃ reason utcnow, op = .pause jobName reason ending utcnow := by
  cases op with
  | pause job reason resumeAt utcnow => simp [starts]
  | resume _ | isPaused _ _ | reopen => simp [starts]

theorem quiet_iff (jobName : String) (resumeAt : DateTime) (op : PauseOp) :
    op.starts jobName = none ∧ op.deletes jobName (some resumeAt) = false ↔
      ¬ op.Ends jobName resumeAt := by
  cases op with
  | pause job reason resumeAt' utcnow => simp [starts, deletes, Ends]
  | resume job => simp [starts, deletes, Ends]
  | isPaused job now => simp [starts, deletes, Ends]
  | reopen => simp [starts, deletes, Ends]

/-- What the operation leaves of an entry, as `Theory.inForce` puts it. -/
def leaves (jobName : String) (op : PauseOp) (held : Option (Option DateTime)) :
    Option (Option DateTime) :=
  (op.starts jobName).or (held.filter fun ending => !op.deletes jobName ending)

variable (jobName job : String) (held : Option (Option DateTime))

theorem leaves_pause (reason : Option String) (resumeAt : Option DateTime) (utcnow : DateTime) :
    (pause job reason resumeAt utcnow).leaves jobName held =
      if jobName = job then some resumeAt else held := by
  rw [leaves, starts]
  by_cases same : jobName = job
  · simp [same]
  · cases held <;> simp [same, Ne.symm same, deletes]

theorem leaves_resume :
    (resume job).leaves jobName held = if jobName = job then none else held := by
  rw [leaves, starts, Option.none_or]
  by_cases same : jobName = job
  · cases held <;> simp [same, deletes]
  · cases held <;> simp [same, Ne.symm same, deletes]

theorem leaves_isPaused (now : DateTime) : (isPaused job now).leaves jobName held =
    if jobName = job then held.filter fun ending => Open ending now else held := by
  rw [leaves, starts, Option.none_or]
  by_cases same : jobName = job
  · cases held <;> simp [same, deletes]
  · cases held <;> simp [same, Ne.symm same, deletes]

theorem leaves_reopen : reopen.leaves jobName held = held := by
  rw [leaves, starts, Option.none_or]
  cases held <;> simp [deletes]

end PauseOp

namespace PauseStore

variable (iso : IsoFormat)

def allPaused (s : PauseStore) : List PauseEntry := s.entries.entries.map Prod.snd

def step (s : PauseStore) : PauseOp → Except PyException PauseStore
  | .pause jobName reason resumeAt utcnow => .ok (s.pause iso utcnow jobName reason resumeAt).2
  | .resume jobName => .ok (s.resume iso jobName).2
  | .isPaused jobName now => .ok (s.isPaused iso jobName now).2
  | .reopen => load iso s.file

def run : List PauseOp → PauseStore → Except PyException PauseStore
  | [], s => .ok s
  | op :: rest, s =>
      match s.step iso op with
      | .error e => .error e
      | .ok s => run rest s

/-- **Listing and query agree** on a job. -/
structure ListingAgrees (s : PauseStore) (jobName : String) (now : DateTime) : Prop where
  listed : (∃ entry ∈ s.allPaused, entry.jobName = jobName) ↔
    (s.isPaused iso jobName now).1 = true
  got : (s.get jobName).isSome = true ↔ (s.isPaused iso jobName now).1 = true

/-- Every pause of the job whose time has come by `now` was ended after that: resumed, put
in another's place, or found over by a query. -/
def OverEnded (ops : List PauseOp) (jobName : String) (now : DateTime) : Prop :=
  ∀ before reason resumeAt utcnow after,
    ops = before ++ .pause jobName reason (some resumeAt) utcnow :: after →
      resumeAt ≤ now → ∃ op ∈ after, op.Ends jobName resumeAt

/-! ## One operation, and a run -/

/-- The ends of the entries, over or not. -/
def endings (s : PauseStore) (jobName : String) : Option (Option DateTime) :=
  (s.entries.get? jobName).map PauseEntry.resumeAt

/-- The file has what memory has, each entry under its own name. -/
def Sound (s : PauseStore) : Prop := ∀ now, s.Keeps iso now s.endings

variable {iso} {s : PauseStore}

theorem Keeps.sound {now : DateTime} {m : String → Option (Option DateTime)}
    (keeps : s.Keeps iso now m) : s.Sound iso := fun later =>
  { file := keeps.file, names := keeps.names, agree := .refl later _ }

theorem endings_pause (s : PauseStore) (utcnow : DateTime) (job : String) (reason : Option String)
    (resumeAt : Option DateTime) (jobName : String) :
    (s.pause iso utcnow job reason resumeAt).2.endings jobName =
      if jobName = job then some resumeAt else s.endings jobName := by
  rw [endings, PauseStore.pause, save, Dict.get?_set]
  split <;> rfl

/-- The entries without one job. -/
theorem endings_erase (s : PauseStore) (job jobName : String) :
    ({ s with entries := s.entries.erase job }.save iso).endings jobName =
      if jobName = job then none else s.endings jobName := by
  rw [endings, save, Dict.get?_erase]
  split <;> rfl

theorem endings_resume (s : PauseStore) (job jobName : String) :
    (s.resume iso job).2.endings jobName = if jobName = job then none else s.endings jobName := by
  rw [PauseStore.resume]
  split
  · exact s.endings_erase job jobName
  · rename_i absent
    split
    · rename_i same
      rw [endings, same, Option.not_isSome_iff_eq_none.mp absent, Option.map_none]
    · rfl

theorem endings_isPaused (s : PauseStore) (job : String) (now : DateTime) (jobName : String) :
    (s.isPaused iso job now).2.endings jobName =
      if jobName = job then (s.endings jobName).filter fun ending => Open ending now
      else s.endings jobName := by
  have held : ∀ entry, s.entries.get? job = some entry → jobName = job →
      s.endings jobName = some entry.resumeAt := by
    rintro entry found rfl
    rw [endings, found, Option.map_some]
  rcases s.isPaused_cases job now with
    ⟨absent, same⟩ | ⟨entry, found, over_, same⟩ | ⟨entry, found, open_, same⟩
  · rw [same]
    split
    · rename_i own
      rw [endings, own, absent, Option.map_none, Option.filter_none]
    · rfl
  · rw [same, endings_erase]
    split
    · rename_i own
      rw [held entry found own, Option.filter_some_neg (by simpa using over_)]
    · rfl
  · rw [same]
    split
    · rename_i own
      rw [held entry found own, Option.filter_some_pos (by simpa using open_)]
    · rfl

/-- **One operation** never fails, and leaves of every entry what it should. -/
theorem step_sound (sound : s.Sound iso) (op : PauseOp) :
    ∃ s', s.step iso op = .ok s' ∧ s'.Sound iso ∧
      ∀ jobName, s'.endings jobName = op.leaves jobName (s.endings jobName) := by
  cases op with
  | pause job reason resumeAt utcnow =>
      refine ⟨_, rfl, ((sound 0).pause utcnow job reason resumeAt).sound, fun jobName => ?_⟩
      rw [endings_pause, PauseOp.leaves_pause]
  | resume job =>
      refine ⟨_, rfl, ((sound 0).resume job).sound, fun jobName => ?_⟩
      rw [endings_resume, PauseOp.leaves_resume]
  | isPaused job now =>
      refine ⟨_, rfl, ((sound now).isPaused job).2.sound, fun jobName => ?_⟩
      rw [endings_isPaused, PauseOp.leaves_isPaused]
  | reopen => exact ⟨s, (sound 0).load, sound, fun jobName => by rw [PauseOp.leaves_reopen]⟩

theorem run_append_single (ops : List PauseOp) (op : PauseOp) {s' : PauseStore}
    (ran : run iso ops s = .ok s') : run iso (ops ++ [op]) s = s'.step iso op := by
  induction ops generalizing s with
  | nil =>
      cases ran
      rw [List.nil_append, run]
      cases s'.step iso op with
      | error e => rfl
      | ok s => rfl
  | cons first rest ih =>
      rw [run] at ran
      rw [List.cons_append, run]
      cases stepped : s.step iso first with
      | error e => rw [stepped] at ran; cases ran
      | ok s₁ =>
          rw [stepped] at ran
          exact ih ran

/-- **A run** never fails, and the entry of a job is the one in force. -/
theorem endings_run (iso : IsoFormat) (ops : List PauseOp) :
    ∃ s, run iso ops {} = .ok s ∧ s.Sound iso ∧ ∀ jobName, s.endings jobName =
      inForce (PauseOp.starts jobName) (fun ending op => op.deletes jobName ending) ops := by
  induction ops using List.reverseRecOn with
  | nil =>
      refine ⟨{}, rfl, fun now => ?_, fun _ => rfl⟩
      exact (Keeps.empty iso now)
  | append_singleton ops op ih =>
      obtain ⟨s, ran, sound, held⟩ := ih
      obtain ⟨s', stepped, sound', leaves⟩ := step_sound sound op
      refine ⟨s', by rw [run_append_single ops op ran, stepped], sound', fun jobName => ?_⟩
      rw [leaves, held, inForce_append_single, PauseOp.leaves]

/-! ## The listing -/

/-- Listing and query agree on a job that has no entry, and on one whose entry is open. -/
theorem listingAgrees_of_endings (sound : s.Sound iso) (jobName : String) (now : DateTime) :
    s.ListingAgrees iso jobName now ↔
      ∀ ending, s.endings jobName = some ending → Open ending now := by
  have listed : (∃ entry ∈ s.allPaused, entry.jobName = jobName) ↔
      (s.get jobName).isSome = true := by
    rw [Option.isSome_iff_exists]
    constructor
    · rintro ⟨entry, member, rfl⟩
      obtain ⟨⟨k, entry⟩, among, rfl⟩ := List.mem_map.mp member
      have held := (Dict.mem_entries_iff _ _ _).mp among
      rw [(sound now).names k entry held]
      exact ⟨entry, held⟩
    · rintro ⟨entry, held⟩
      refine ⟨entry, List.mem_map.mpr ⟨(jobName, entry), ?_, rfl⟩, (sound now).names _ _ held⟩
      exact (Dict.mem_entries_iff _ _ _).mpr held
  have asked : (s.isPaused iso jobName now).1 = true ↔ Holds s.endings jobName now :=
    ((sound now).isPaused jobName).1
  have agrees : s.ListingAgrees iso jobName now ↔
      ((s.get jobName).isSome = true ↔ Holds s.endings jobName now) := by
    rw [← asked]
    exact ⟨fun both => both.got, fun got => ⟨listed.trans got, got⟩⟩
  rw [agrees, get, ← Option.isSome_map (f := PauseEntry.resumeAt), ← endings]
  cases held : s.endings jobName with
  | none => simp [holds_of_none held]
  | some ending => simp [holds_of_some held]

/-- **When the listing agrees** with the query, after any operations and at any time: when
every pause of the job whose time has come was ended. -/
theorem listingAgrees_iff (iso : IsoFormat) (ops : List PauseOp) :
    ∃ s, run iso ops {} = .ok s ∧ ∀ jobName now,
      s.ListingAgrees iso jobName now ↔ OverEnded ops jobName now := by
  obtain ⟨s, ran, sound, held⟩ := endings_run iso ops
  refine ⟨s, ran, fun jobName now => ?_⟩
  rw [listingAgrees_of_endings sound, held]
  simp only [inForce_eq_some_iff]
  constructor
  · rintro opens before reason resumeAt utcnow after rfl le
    by_contra unended
    have open_ : Open (some resumeAt) now := by
      refine opens (some resumeAt) ⟨before, _, after, rfl, ?_, fun op member => ?_⟩
      · exact (PauseOp.starts_eq_some_iff _ _ _).mpr ⟨reason, utcnow, rfl⟩
      · exact (op.quiet_iff jobName resumeAt).mpr fun ended => unended ⟨op, member, ended⟩
    exact absurd ((open_some resumeAt now).mp open_) (not_lt.mpr le)
  · rintro ended ending ⟨before, op, after, rfl, started, kept⟩
    obtain ⟨reason, utcnow, rfl⟩ := (PauseOp.starts_eq_some_iff _ _ _).mp started
    intro resumeAt timed
    cases timed
    by_contra come
    obtain ⟨op, member, ends⟩ := ended before reason resumeAt utcnow after rfl (not_lt.mp come)
    exact (op.quiet_iff jobName resumeAt).mp (kept op member) ends

/-- A pause that has run out stays in the listing until somebody asks about its job. -/
theorem cleanup_listed :
    ∃ s, run firstMinute [.pause "cleanup" none (some (seconds 10)) 0] {} = .ok s ∧
      s.allPaused.map PauseEntry.jobName = ["cleanup"] ∧ (s.get "cleanup").isSome = true ∧
      (s.isPaused firstMinute "cleanup" (seconds 60)).1 = false ∧
      ¬ s.ListingAgrees firstMinute "cleanup" (seconds 60) := by
  refine ⟨_, rfl, rfl, rfl, rfl, fun agrees => ?_⟩
  exact absurd (agrees.got.mp rfl) (by decide)

end PauseStore

/-! ## The store that asks -/

/-- **What `all_active` lists** of a mute store is what `is_muted` answers. -/
theorem MuteStore.allActive_agrees (iso : IsoFormat) (s : MuteStore) (now : DateTime)
    {listed : Dict String MuteEntry} (done : s.allActive iso now = .ok listed) (jobName : String) :
    s.isMuted iso jobName now = .ok (listed.get? jobName).isSome := by
  rw [allActive] at done
  rw [isMuted, get]
  cases loaded : s.load iso with
  | error e =>
      rw [loaded] at done
      cases done
  | ok entries =>
      rw [loaded] at done
      cases done
      rw [Dict.get?_filter]
      cases found : entries.get? jobName with
      | none => simp [Except.map, found]
      | some entry => cases active : entry.isActive now <;> simp [Except.map, found, active]

end Cronwatch.Silence
