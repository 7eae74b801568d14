/-
# Theory.AtomicSave -- a value that is kept on a disk, when the process may stop

A `Saver` holds a value and a disk from which it can be read.  An operation changes the
value, and brings the disk up to date in a number of steps; a process that stops after
some of them is followed by one that reads the disk.

`Atomic` says that no step of an operation but the last changes what is read, and the
last one makes it the new value.  Then in any run, with any stops, the value is what is
read from the disk (`run_synced`), and after a stop it is that of the last operation
that was completed, or that of the one that was cut short (`stop_cases`).

`InPlace` is the other kind: from its first step to its last one an operation leaves nothing
that can be read.  A stop then keeps the value, completes the operation or loses everything
(`InPlace.stop_eq`), and a run is the run of the operations that were completed, with the losses
among them (`InPlace.run_lived`).
-/
import Mathlib.Data.List.Forall2
import Mathlib.Data.List.Induction
import Mathlib.Data.List.Infix

namespace Cronwatch.Theory

set_option autoImplicit false

universe u v w

/-- Values `α` on disks `δ`, with operations `ω`; an operation may depend on the value. -/
structure Saver (δ : Type u) (α : Type v) (ω : Type w) where
  read : δ → α
  change : ω → α → α
  steps : ω → α → List (δ → δ)

namespace Saver

variable {δ : Type u} {α : Type v} {ω : Type w} (m : Saver δ α ω)

structure State (δ : Type u) (α : Type v) where
  value : α
  disk : δ

inductive Event (ω : Type w) where
  | done (o : ω)
  /-- The process stops after `n` steps of the operation, and the disk is read anew. -/
  | stopped (o : ω) (n : Nat)

def opened (d : δ) : State δ α := ⟨m.read d, d⟩

/-- The disk after these steps. -/
def after (steps : List (δ → δ)) (d : δ) : δ := steps.foldl (fun d f => f d) d

def step (s : State δ α) : Event ω → State δ α
  | .done o => ⟨m.change o s.value, after (m.steps o s.value) s.disk⟩
  | .stopped o n => m.opened (after ((m.steps o s.value).take n) s.disk)

def run (events : List (Event ω)) (s : State δ α) : State δ α := events.foldl m.step s

/-- Only the last step of an operation changes what is read, to the new value. -/
structure Atomic : Prop where
  before : ∀ o n d, n < (m.steps o (m.read d)).length →
    m.read (after ((m.steps o (m.read d)).take n) d) = m.read d
  done : ∀ o d, m.read (after (m.steps o (m.read d)) d) = m.change o (m.read d)

variable {m}

theorem run_append_single (events : List (Event ω)) (e : Event ω) (s : State δ α) :
    m.run (events ++ [e]) s = m.step (m.run events s) e := by
  rw [run, List.foldl_append]
  rfl

theorem after_append (first second : List (δ → δ)) (d : δ) :
    after (first ++ second) d = after second (after first d) :=
  List.foldl_append

/-! ## Saving by steps that are not seen -/

/-- The steps leave what is read alone. -/
def Quiet (m : Saver δ α ω) (steps : List (δ → δ)) : Prop :=
  ∀ f ∈ steps, ∀ d, m.read (f d) = m.read d

theorem Quiet.read_after {steps : List (δ → δ)} (quiet : m.Quiet steps) (d : δ) :
    m.read (after steps d) = m.read d := by
  induction steps generalizing d with
  | nil => rfl
  | cons f rest ih =>
      have others : m.Quiet rest := fun g member => quiet g (List.mem_cons_of_mem f member)
      show m.read (after rest (f d)) = m.read d
      rw [ih others, quiet f List.mem_cons_self]

/-- **A save whose steps are quiet** up to the last one is atomic, if it saves at all. -/
theorem Atomic.of_quiet
    (quiet : ∀ o d, m.Quiet (m.steps o (m.read d)).dropLast)
    (done : ∀ o d, m.read (after (m.steps o (m.read d)) d) = m.change o (m.read d)) :
    m.Atomic := by
  refine ⟨fun o n d early => ?_, done⟩
  have taken : m.Quiet ((m.steps o (m.read d)).take n) := by
    intro f member
    apply quiet o d f
    rw [List.dropLast_eq_take]
    exact List.take_subset_take_left _ (Nat.le_sub_one_of_lt early) member
  exact taken.read_after d

/-! ## Runs -/

/-- A completed operation leaves the new value to be read. -/
def Saves (m : Saver δ α ω) : Prop :=
  ∀ o d, m.read (after (m.steps o (m.read d)) d) = m.change o (m.read d)

/-- **One event** keeps the value that which is read from the disk. -/
theorem Saves.step_synced (saves : m.Saves) {s : State δ α} (synced : m.read s.disk = s.value)
    (e : Event ω) : m.read (m.step s e).disk = (m.step s e).value := by
  cases e with
  | done o =>
      show m.read (after (m.steps o s.value) s.disk) = m.change o s.value
      rw [← synced]
      exact saves o s.disk
  | stopped o n => rfl

/-- **Any run** does. -/
theorem Saves.run_synced (saves : m.Saves) (events : List (Event ω)) (d : δ) :
    m.read (m.run events (m.opened d)).disk = (m.run events (m.opened d)).value := by
  induction events using List.reverseRecOn with
  | nil => rfl
  | append_singleton before e ih =>
      rw [run_append_single]
      exact saves.step_synced ih e

theorem Atomic.run_synced (atomic : m.Atomic) (events : List (Event ω)) (d : δ) :
    m.read (m.run events (m.opened d)).disk = (m.run events (m.opened d)).value :=
  Saves.run_synced atomic.done events d

/-- **A stop** leaves the value as it was, or as the operation makes it. -/
theorem Atomic.stop_cases (atomic : m.Atomic) {s : State δ α} (synced : m.read s.disk = s.value)
    (o : ω) (n : Nat) : (m.step s (.stopped o n)).value = s.value ∨
      (m.step s (.stopped o n)).value = m.change o s.value := by
  show m.read (after ((m.steps o s.value).take n) s.disk) = s.value ∨
    m.read (after ((m.steps o s.value).take n) s.disk) = m.change o s.value
  rw [← synced]
  by_cases early : n < (m.steps o (m.read s.disk)).length
  · exact .inl (atomic.before o n s.disk early)
  · rw [List.take_of_length_le (Nat.le_of_not_lt early)]
    exact .inr (atomic.done o s.disk)

/-! ## Saving in place -/

/-- From the first step of an operation to its last one there is nothing to be read. -/
structure InPlace (m : Saver δ α ω) (empty : α) : Prop where
  torn : ∀ o d n, 0 < n → n < (m.steps o (m.read d)).length →
    m.read (after ((m.steps o (m.read d)).take n) d) = empty
  done : m.Saves

/-- **A stop** before the first step leaves the value as it was, one behind the last step completes
the operation, and any other loses everything. -/
theorem InPlace.stop_eq {empty : α} (inPlace : m.InPlace empty) {s : State δ α}
    (synced : m.read s.disk = s.value) (o : ω) (n : Nat) :
    (m.step s (.stopped o n)).value =
      if n = 0 then s.value
      else if n < (m.steps o s.value).length then empty
      else m.change o s.value := by
  show m.read (after ((m.steps o s.value).take n) s.disk) = _
  rw [← synced]
  split
  · rename_i unbegun
    rw [unbegun]
    rfl
  · rename_i begun
    split
    · rename_i early
      exact inPlace.torn o s.disk n (Nat.pos_of_ne_zero begun) early
    · rename_i late
      rw [List.take_of_length_le (Nat.le_of_not_lt late)]
      exact inPlace.done o s.disk

/-- What may become of an event: an operation that is completed, a loss (`none`), or nothing. -/
inductive Lived : Event ω → List (Option ω) → Prop
  | done (o : ω) : Lived (.done o) [some o]
  | unbegun (o : ω) : Lived (.stopped o 0) []
  | torn (o : ω) (n : Nat) : 0 < n → Lived (.stopped o n) [none]
  | finished (o : ω) (n : Nat) : 0 < n → Lived (.stopped o n) [some o]

def redo (m : Saver δ α ω) (empty : α) (value : α) : Option ω → α
  | none => empty
  | some o => m.change o value

theorem InPlace.step_lived {empty : α} (inPlace : m.InPlace empty) {s : State δ α}
    (synced : m.read s.disk = s.value) (e : Event ω) :
    ∃ story, Lived e story ∧ (m.step s e).value = story.foldl (m.redo empty) s.value := by
  cases e with
  | done o => exact ⟨[some o], .done o, rfl⟩
  | stopped o n =>
      rw [inPlace.stop_eq synced]
      split
      · rename_i unbegun
        subst unbegun
        exact ⟨[], .unbegun o, rfl⟩
      · rename_i begun
        have positive := Nat.pos_of_ne_zero begun
        split
        · exact ⟨[none], .torn o n positive, rfl⟩
        · exact ⟨[some o], .finished o n positive, rfl⟩

/-- **Any run** is that of the operations and losses that its events have become. -/
theorem InPlace.run_lived {empty : α} (inPlace : m.InPlace empty) (events : List (Event ω)) (d : δ) :
    ∃ stories, List.Forall₂ Lived events stories ∧
      (m.run events (m.opened d)).value = stories.flatten.foldl (m.redo empty) (m.read d) := by
  induction events using List.reverseRecOn with
  | nil => exact ⟨[], .nil, rfl⟩
  | append_singleton before e ih =>
      obtain ⟨stories, lived, value⟩ := ih
      obtain ⟨story, last, next⟩ := inPlace.step_lived (inPlace.done.run_synced before d) e
      refine ⟨stories ++ [story], List.rel_append lived (.cons last .nil), ?_⟩
      rw [run_append_single, next, value, List.flatten_append, List.foldl_append, List.flatten_singleton]

/-! ### A text that is written bit by bit -/

section Text

variable {τ : Type u}

/-- A file is opened, which empties it, and the text is written. -/
def writes (text : List τ) : List (Option (List τ) → Option (List τ)) := text.inits.map fun part _ => some part

theorem length_writes (text : List τ) : (writes text).length = text.length + 1 := by
  rw [writes, List.length_map, List.length_inits]

theorem after_writes (text : List τ) (file : Option (List τ)) : after (writes text) file = some text := by
  induction text using List.reverseRecOn with
  | nil => rfl
  | append_singleton before token ih =>
      rw [writes, List.inits_append, List.map_append, after_append, ← writes, ih]
      rfl

theorem take_inits (n : Nat) (text : List τ) : text.inits.take (n + 1) = (text.take n).inits := by
  induction n generalizing text with
  | zero => cases text <;> rfl
  | succ n ih =>
      cases text with
      | nil => rfl
      | cons token rest =>
          rw [List.inits_cons, List.take_succ_cons, ← List.map_take, ih, List.take_succ_cons,
            List.inits_cons]

/-- **After some of the steps** there is a part of the text. -/
theorem after_take_writes (n : Nat) (text : List τ) (file : Option (List τ)) :
    after ((writes text).take (n + 1)) file = some (text.take n) := by
  rw [writes, ← List.map_take, take_inits]
  exact after_writes (text.take n) file

end Text

end Saver

end Cronwatch.Theory
