/-
# Silence.SharedPauses -- pause stores of several processes on one file

A `PauseStore` reads its file when it is made, and writes all that it has in memory at every change.
Two processes with a store each on one file, say the daemon and an operator's tool, do not see each
other's pauses until they open the file anew, and the later write wins.

`Views` says which operations a process knows of, and which are in the file.  `shared_pauses`: in
any interleaving every process answers from the operations that it knows of, and who opens the file
then knows of those of the last writer.  A call is one step.
-/
import Cronwatch.Silence.PauseListing

namespace Cronwatch.Silence

set_option autoImplicit false

open Cronwatch.Theory Cronwatch.Theory.ExpiringMap Cronwatch.Runtime

/-- The file, and what every process has in memory; they were made when there was no file. -/
structure SharedPauses (ρ : Type) where
  file : Option (Dict String PauseRecord) := none
  memory : ρ → Dict String PauseEntry := fun _ => .empty

namespace SharedPauses

variable {ρ : Type} [DecidableEq ρ] (iso : IsoFormat)

/-- The store of a process. -/
def store (w : SharedPauses ρ) (p : ρ) : PauseStore := ⟨w.file, w.memory p⟩

def step (w : SharedPauses ρ) (p : ρ) (op : PauseOp) : Except PyException (SharedPauses ρ) :=
  ((w.store p).step iso op).map fun s => ⟨s.file, Function.update w.memory p s.entries⟩

def run : List (ρ × PauseOp) → SharedPauses ρ → Except PyException (SharedPauses ρ)
  | [], w => .ok w
  | (p, op) :: rest, w =>
      match w.step iso p op with
      | .error e => .error e
      | .ok w => run rest w

end SharedPauses

/-! ## What is known where -/

/-- The end of the entry that these operations leave for the job. -/
def heldBy (ops : List PauseOp) (jobName : String) : Option (Option DateTime) :=
  inForce (PauseOp.starts jobName) (fun ending op => op.deletes jobName ending) ops

/-- The operation, behind these, writes the file. -/
def PauseOp.saves (ops : List PauseOp) : PauseOp → Bool
  | .pause _ _ _ _ => true
  | .resume jobName => (heldBy ops jobName).isSome
  | .isPaused jobName now => (heldBy ops jobName).any fun ending => ¬ Open ending now
  | .reopen => false

/-- The operations that the file stands for, and those that each process knows of. -/
structure Views (ρ : Type) where
  file : List PauseOp := []
  of : ρ → List PauseOp := fun _ => []

namespace Views

variable {ρ : Type} [DecidableEq ρ]

def step (v : Views ρ) (p : ρ) (op : PauseOp) : Views ρ :=
  if op = .reopen then { v with of := Function.update v.of p v.file }
  else
    { file := if op.saves (v.of p) then v.of p ++ [op] else v.file
      of := Function.update v.of p (v.of p ++ [op]) }

def after (events : List (ρ × PauseOp)) : Views ρ := events.foldl (fun v e => v.step e.1 e.2) {}

theorem after_append_single (events : List (ρ × PauseOp)) (e : ρ × PauseOp) :
    after (events ++ [e]) = (after events).step e.1 e.2 :=
  List.foldl_concat ..

/-- **A process that never opens the file anew** knows of its own operations alone. -/
theorem of_private {events : List (ρ × PauseOp)} {p : ρ}
    (never : ∀ e ∈ events, e.1 = p → e.2 ≠ .reopen) :
    (after events).of p = (events.filter fun e => e.1 = p).map Prod.snd := by
  induction events using List.reverseRecOn with
  | nil => rfl
  | append_singleton before e ih =>
      have earlier := ih fun e' member => never e' (List.mem_append_left _ member)
      have last := never e (List.mem_append_right _ List.mem_cons_self)
      rw [after_append_single, step, List.filter_append, List.map_append]
      by_cases own : e.1 = p
      · subst own
        have here : ([e].filter fun e' => e'.1 = e.1) = [e] := List.filter_cons_of_pos (decide_eq_true rfl)
        rw [if_neg (last rfl), here, ← earlier]
        exact Function.update_self ..
      · have others : ([e].filter fun e => e.1 = p) = [] :=
          List.filter_cons_of_neg (by simpa using own)
        rw [others, List.map_nil, List.append_nil, ← earlier]
        split
        · exact Function.update_of_ne (Ne.symm own) ..
        · exact Function.update_of_ne (Ne.symm own) ..

end Views

/-! ## One call -/

namespace PauseStore

variable (iso : IsoFormat)

/-- What a call makes of the entries does not depend on the file, which a save replaces. -/
theorem step_cases {entries : Dict String PauseEntry} {ops : List PauseOp}
    (same : ∀ jobName, (entries.get? jobName).map PauseEntry.resumeAt = heldBy ops jobName)
    {op : PauseOp} (call : op ≠ .reopen) :
    (op.saves ops = true ∧ ∃ entries', ∀ file, PauseStore.step iso ⟨file, entries⟩ op =
        .ok (({ entries := entries' } : PauseStore).save iso)) ∨
      (op.saves ops = false ∧ ∀ file, PauseStore.step iso ⟨file, entries⟩ op = .ok ⟨file, entries⟩) := by
  cases op with
  | pause jobName reason resumeAt utcnow =>
      exact .inl ⟨rfl, entries.set jobName { jobName, pausedAt := utcnow, reason, resumeAt }, fun _ => rfl⟩
  | resume jobName =>
      rw [PauseOp.saves, ← same]
      cases held : entries.get? jobName with
      | none =>
          refine .inr ⟨rfl, fun file => ?_⟩
          rw [step, resume]
          simp [held]
      | some entry =>
          refine .inl ⟨rfl, entries.erase jobName, fun file => ?_⟩
          rw [step, resume]
          simp [held, save]
  | isPaused jobName now =>
      rw [PauseOp.saves, ← same]
      cases held : entries.get? jobName with
      | none =>
          refine .inr ⟨rfl, fun file => ?_⟩
          rw [step, isPaused]
          simp [held]
      | some entry =>
          have expired := entry.isExpired_iff now
          by_cases open_ : Open entry.resumeAt now
          · refine .inr ⟨by simpa using open_, fun file => ?_⟩
            have not_ : entry.isExpired now = false := by
              rw [Bool.eq_false_iff]
              exact fun is => expired.mp is open_
            rw [step, isPaused]
            simp [held, not_]
          · refine .inl ⟨by simpa using open_, entries.erase jobName, fun file => ?_⟩
            have is : entry.isExpired now = true := expired.mpr open_
            rw [step, isPaused]
            simp [held, is, save]
  | reopen => exact absurd rfl call

/-- An answer does not depend on the file. -/
theorem isPaused_entries (entries : Dict String PauseEntry) (file file' : Option (Dict String PauseRecord))
    (jobName : String) (now : DateTime) :
    (isPaused iso jobName now ⟨file, entries⟩).1 = (isPaused iso jobName now ⟨file', entries⟩).1 := by
  rw [isPaused, isPaused]
  cases entries.get? jobName with
  | none => rfl
  | some entry =>
      dsimp only
      split <;> rfl

end PauseStore

/-! ## Any interleaving -/

namespace SharedPauses

variable {ρ : Type} [DecidableEq ρ] {iso : IsoFormat}

/-- Every process has in memory what its operations make, and the file is that of a store behind the
operations that it stands for. -/
structure Follows (iso : IsoFormat) (w : SharedPauses ρ) (v : Views ρ) : Prop where
  memory : ∀ p, ∃ s, PauseStore.run iso (v.of p) {} = .ok s ∧ s.entries = w.memory p
  file : ∃ s, PauseStore.run iso v.file {} = .ok s ∧ s.file = w.file

theorem endings_of_run {ops : List PauseOp} {s : PauseStore} (ran : PauseStore.run iso ops {} = .ok s) :
    s.Sound iso ∧ ∀ jobName, (s.entries.get? jobName).map PauseEntry.resumeAt = heldBy ops jobName := by
  obtain ⟨s', ran', sound, held⟩ := PauseStore.endings_run iso ops
  rw [ran] at ran'
  cases ran'
  exact ⟨sound, held⟩

/-- One process more goes on with other entries. -/
theorem Follows.update {w : SharedPauses ρ} {v : Views ρ} (follows : Follows iso w v) (p : ρ)
    {ops : List PauseOp} {s : PauseStore} (ran : PauseStore.run iso ops {} = .ok s) (q : ρ) :
    ∃ s', PauseStore.run iso (Function.update v.of p ops q) {} = .ok s' ∧
      s'.entries = Function.update w.memory p s.entries q := by
  by_cases own : q = p
  · subst own
    rw [Function.update_self, Function.update_self]
    exact ⟨s, ran, rfl⟩
  · rw [Function.update_of_ne own, Function.update_of_ne own]
    exact follows.memory q

/-- **One call** of a process. -/
theorem Follows.step {w : SharedPauses ρ} {v : Views ρ} (follows : Follows iso w v) (p : ρ) (op : PauseOp) :
    ∃ w', w.step iso p op = .ok w' ∧ Follows iso w' (v.step p op) := by
  obtain ⟨s, ran, entries⟩ := follows.memory p
  obtain ⟨f, ranFile, file⟩ := follows.file
  by_cases call : op = .reopen
  · subst call
    have opens : PauseStore.load iso w.file = .ok f := by
      rw [← file]
      exact ((endings_of_run ranFile).1 0).load
    refine ⟨⟨f.file, Function.update w.memory p f.entries⟩, ?_, follows.update p ranFile, f, ranFile, rfl⟩
    rw [SharedPauses.step, PauseStore.step, store, opens]
    rfl
  · have step := PauseStore.run_append_single (v.of p) op ran
    have view : v.step p op = { file := if op.saves (v.of p) then v.of p ++ [op] else v.file,
                                of := Function.update v.of p (v.of p ++ [op]) } := if_neg call
    have one := PauseStore.step_cases iso (endings_of_run ran).2 call
    rw [view, SharedPauses.step, store, ← entries]
    rcases one with ⟨saves, entries', stepped⟩ | ⟨none_, stepped⟩
    · let saved : PauseStore := ({ entries := entries' } : PauseStore).save iso
      have mine : PauseStore.run iso (v.of p ++ [op]) {} = .ok saved := step.trans (stepped s.file)
      rw [stepped w.file, if_pos saves]
      exact ⟨_, rfl, follows.update p mine, saved, mine, rfl⟩
    · have mine : PauseStore.run iso (v.of p ++ [op]) {} = .ok s := step.trans (stepped s.file)
      have memory := follows.update p mine
      rw [stepped w.file, if_neg (by simp [none_])]
      exact ⟨_, rfl, memory, f, ranFile, file⟩

theorem run_append_single (before : List (ρ × PauseOp)) (p : ρ) (op : PauseOp) {w w' : SharedPauses ρ}
    (ran : run iso before w = .ok w') : run iso (before ++ [(p, op)]) w = w'.step iso p op := by
  induction before generalizing w with
  | nil =>
      cases ran
      rw [List.nil_append, run]
      cases w'.step iso p op <;> rfl
  | cons first rest ih =>
      rw [List.cons_append, run]
      rw [run] at ran
      cases stepped : w.step iso first.1 first.2 with
      | error e => rw [stepped] at ran; cases ran
      | ok w₁ =>
          rw [stepped] at ran
          exact ih ran

/-- **Any interleaving** of calls. -/
theorem run_follows (iso : IsoFormat) (events : List (ρ × PauseOp)) :
    ∃ w, run iso events {} = .ok w ∧ Follows iso w (Views.after events) := by
  induction events using List.reverseRecOn with
  | nil => exact ⟨{}, rfl, fun _ => ⟨{}, rfl, rfl⟩, {}, rfl, rfl⟩
  | append_singleton before e ih =>
      obtain ⟨w, ran, follows⟩ := ih
      obtain ⟨w', stepped, follows'⟩ := follows.step e.1 e.2
      refine ⟨w', (run_append_single before e.1 e.2 ran).trans stepped, ?_⟩
      rw [Views.after_append_single]
      exact follows'

/-- **Stores that share a file.**  Any interleaving of calls runs; every process answers from the
operations that it knows of, which are its own alone if it never opens the file anew; and a store
that is made now is one behind the operations that the file stands for. -/
theorem shared_pauses (iso : IsoFormat) (events : List (ρ × PauseOp)) :
    ∃ w, run iso events {} = .ok w ∧
      (∀ p jobName now, (PauseStore.isPaused iso jobName now (w.store p)).1 = true ↔
        Holds (heldBy ((Views.after events).of p)) jobName now) ∧
      (∀ p, (∀ e ∈ events, e.1 = p → e.2 ≠ .reopen) →
        (Views.after events).of p = (events.filter fun e => e.1 = p).map Prod.snd) ∧
      ∃ s, PauseStore.load iso w.file = .ok s ∧ PauseStore.run iso (Views.after events).file {} = .ok s ∧
        ∀ jobName now, (PauseStore.isPaused iso jobName now s).1 = true ↔
          Holds (heldBy (Views.after events).file) jobName now := by
  obtain ⟨w, ran, follows⟩ := run_follows iso events
  have answers : ∀ {ops : List PauseOp} {s : PauseStore}, PauseStore.run iso ops {} = .ok s →
      ∀ jobName now, (PauseStore.isPaused iso jobName now s).1 = true ↔ Holds (heldBy ops) jobName now := by
    intro ops s ran jobName now
    obtain ⟨sound, held⟩ := endings_of_run ran
    have same : s.endings = heldBy ops := funext held
    rw [← same]
    exact ((sound now).isPaused jobName).1
  refine ⟨w, ran, fun p jobName now => ?_, fun p => Views.of_private, ?_⟩
  · obtain ⟨s, ranOwn, entries⟩ := follows.memory p
    rw [← answers ranOwn jobName now, store, ← entries]
    have same := PauseStore.isPaused_entries iso s.entries w.file s.file jobName now
    rw [same]
  · obtain ⟨s, ranFile, file⟩ := follows.file
    refine ⟨s, ?_, ranFile, answers ranFile⟩
    rw [← file]
    exact ((endings_of_run ranFile).1 0).load

/-- An operator pauses `backup`; the daemon, which has its store from before, finds the pause of
`etl` over and writes the file, and the pause of `backup` is gone. -/
example :
    let events : List (Bool × PauseOp) := [(true, .pause "etl" none (some (seconds 10)) 0),
      (false, .reopen), (false, .pause "backup" none none (seconds 20)), (true, .isPaused "etl" (seconds 60))]
    heldBy ((Views.after events).of false) "backup" = some none ∧
      heldBy ((Views.after events).of true) "backup" = none ∧
        heldBy (Views.after events).file "backup" = none := by
  decide

end SharedPauses

end Cronwatch.Silence
