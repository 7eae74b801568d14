/-
# Theory.TextStore -- a state that is kept as one text, rewritten in place

A `TextStore` reads its state from a file.  An operation may write a new state, and then the file is
opened, which empties it, and the text of the state written bit by bit.  No part of a text is read.

A process may stop at any step.  `life` says what a run with such stops comes to: either it is the
run of the operations that were completed, or a save was cut short, and then the file stays as it is
and is never read again.  `stopped_disk` says which stops are losses.
-/
import Cronwatch.Theory.AtomicSave

namespace Cronwatch.Theory

set_option autoImplicit false

universe u v w

namespace Saver

variable {δ : Type u} {α : Type v} {ω : Type w} {m : Saver δ α ω} {lost : α}

/-- Where all is lost no operation does anything. -/
def Stuck (m : Saver δ α ω) (lost : α) : Prop := ∀ o, m.steps o lost = [] ∧ m.change o lost = lost

theorem Stuck.step (stuck : m.Stuck lost) {s : State δ α} (value : s.value = lost)
    (synced : m.read s.disk = s.value) (e : Event ω) : m.step s e = s := by
  obtain ⟨held, disk⟩ := s
  dsimp only at value synced
  subst value
  cases e with
  | done o =>
      rw [Saver.step, (stuck o).1, (stuck o).2]
      rfl
  | stopped o n =>
      rw [Saver.step, (stuck o).1, List.take_nil]
      show State.mk (m.read disk) disk = _
      rw [synced]

theorem Stuck.run (stuck : m.Stuck lost) {s : State δ α} (value : s.value = lost)
    (synced : m.read s.disk = s.value) (events : List (Event ω)) : m.run events s = s := by
  induction events with
  | nil => rfl
  | cons e rest ih =>
      show m.run rest (m.step s e) = s
      rw [stuck.step value synced, ih]

theorem Stuck.redo (stuck : m.Stuck lost) (story : List (Option ω)) (value : α) (loss : none ∈ story) :
    story.foldl (m.redo lost) value = lost := by
  induction story using List.reverseRecOn with
  | nil => cases loss
  | append_singleton before event ih =>
      rw [List.foldl_concat]
      cases event with
      | none => rfl
      | some o =>
          have earlier : none ∈ before := by simpa using loss
          rw [ih earlier]
          exact (stuck o).2

end Saver

/-- A story without a loss is one of operations. -/
theorem operations_of_story {ω : Type u} (story : List (Option ω)) (kept : none ∉ story) :
    ∃ ops : List ω, story = ops.map some := by
  induction story with
  | nil => exact ⟨[], rfl⟩
  | cons event rest ih =>
      rw [List.mem_cons, not_or] at kept
      obtain ⟨ops, rfl⟩ := ih kept.2
      cases event with
      | none => exact absurd rfl kept.1
      | some o => exact ⟨o :: ops, rfl⟩

/-- States `σ` kept as texts of tokens `τ`, with operations `ω`. -/
structure TextStore (τ : Type u) (σ : Type v) (ω : Type w) where
  /-- `none` is a file that cannot be read. -/
  read : Option (List τ) → Option σ
  /-- The state that the operation saves, if it saves one. -/
  write : ω → σ → Option σ
  text : σ → List τ
  whole : ∀ {file s o s'}, read file = some s → write o s = some s' → read (some (text s')) = some s'
  cut : ∀ s part rest, part ++ rest = text s → rest ≠ [] → read (some part) = none

namespace TextStore

open Saver

variable {τ : Type u} {σ : Type v} {ω : Type w} (store : TextStore τ σ ω)

/-- What the operation leaves. -/
def after (s : σ) (o : ω) : σ := (store.write o s).getD s

def saver : Saver (Option (List τ)) (Option σ) ω where
  read := store.read
  change o held := held.map (store.after · o)
  steps o held :=
    match held.bind (store.write o) with
    | none => []
    | some s => writes (store.text s)

/-- After these events, from this file on. -/
def lived (file : Option (List τ)) (events : List (Event ω)) : State (Option (List τ)) (Option σ) :=
  store.saver.run events (store.saver.opened file)

variable {store}

theorem steps_cases (o : ω) (file : Option (List τ)) :
    (store.saver.steps o (store.read file) = [] ∧
        store.saver.change o (store.read file) = store.read file) ∨
      ∃ s s', store.read file = some s ∧ store.write o s = some s' ∧
        store.saver.steps o (store.read file) = writes (store.text s') ∧
        store.saver.change o (store.read file) = some s' := by
  cases held : store.read file with
  | none => exact .inl ⟨rfl, rfl⟩
  | some s =>
      cases written : store.write o s with
      | none => exact .inl ⟨by simp [saver, written], by simp [saver, after, written]⟩
      | some s' => exact .inr ⟨s, s', rfl, written, by simp [saver, written], by simp [saver, after, written]⟩

theorem inPlace : store.saver.InPlace none where
  torn := by
    intro o file n begun early
    change n < (store.saver.steps o (store.read file)).length at early
    show store.read (Saver.after ((store.saver.steps o (store.read file)).take n) file) = none
    obtain ⟨m, rfl⟩ := Nat.exists_eq_succ_of_ne_zero (Nat.ne_of_gt begun)
    rcases store.steps_cases o file with ⟨none_, -⟩ | ⟨s, s', -, -, steps, -⟩
    · rw [none_] at early
      cases early
    · rw [steps, length_writes] at early
      rw [steps, Nat.succ_eq_add_one, after_take_writes]
      refine store.cut s' _ _ (List.take_append_drop m _) fun empty => ?_
      rw [List.drop_eq_nil_iff] at empty
      omega
  done := by
    intro o file
    show store.read (Saver.after (store.saver.steps o (store.read file)) file) =
      store.saver.change o (store.read file)
    rcases store.steps_cases o file with ⟨none_, same⟩ | ⟨s, s', held, written, steps, change⟩
    · rw [none_, same]
      rfl
    · rw [steps, change, after_writes]
      exact store.whole held written

theorem stuck : store.saver.Stuck none := fun _ => ⟨rfl, rfl⟩

theorem synced (file : Option (List τ)) (events : List (Event ω)) :
    store.read (store.lived file events).disk = (store.lived file events).value :=
  inPlace.done.run_synced events file

theorem lived_append_single (file : Option (List τ)) (events : List (Event ω)) (e : Event ω) :
    store.lived file (events ++ [e]) = store.saver.step (store.lived file events) e :=
  run_append_single events e _

theorem foldl_change (ops : List ω) (s : σ) :
    (ops.map some).foldl (store.saver.redo none) (some s) = some (ops.foldl store.after s) := by
  induction ops generalizing s with
  | nil => rfl
  | cons o rest ih => exact ih (store.after s o)

/-- **Whole or lost for good.**  The events have become operations that were completed, and the file
is that of their run; or one has become a loss, the file is not read, and no event changes it. -/
theorem life {file : Option (List τ)} {s : σ} (read : store.read file = some s) (events : List (Event ω)) :
    ∃ stories, List.Forall₂ Lived events stories ∧
      ((none ∈ stories.flatten ∧ store.read (store.lived file events).disk = none ∧
          ∀ more, store.lived file (events ++ more) = store.lived file events) ∨
        ∃ ops : List ω, stories.flatten = ops.map some ∧
          store.read (store.lived file events).disk = some (ops.foldl store.after s)) := by
  have saves : store.saver.InPlace none := inPlace
  obtain ⟨stories, became, told⟩ := saves.run_lived events file
  have same : store.read (store.lived file events).disk =
      stories.flatten.foldl (store.saver.redo none) (some s) := by
    rw [synced]
    refine told.trans ?_
    show stories.flatten.foldl _ (store.read file) = _
    rw [read]
  refine ⟨stories, became, ?_⟩
  by_cases loss : none ∈ stories.flatten
  · rw [stuck.redo _ _ loss] at same
    refine .inl ⟨loss, same, fun more => ?_⟩
    show List.foldl _ _ (events ++ more) = _
    rw [List.foldl_append]
    exact stuck.run ((synced file events).symm.trans same) (synced file events) more
  · obtain ⟨ops, are⟩ := operations_of_story _ loss
    rw [are, foldl_change] at same
    exact .inr ⟨ops, are, same⟩

/-- **Which stops are losses**: of an operation that writes, those from the opening of the file to
the last token but one. -/
theorem stopped_disk (file : Option (List τ)) (events : List (Event ω)) (o : ω) :
    (∀ n, store.lived file (events ++ [.stopped o n]) = store.lived file events) ∨
      ∃ text : List τ, (store.lived file (events ++ [.done o])).disk = some text ∧
        store.read (some text) ≠ none ∧ ∀ n,
          (store.lived file (events ++ [.stopped o n])).disk =
              (if n = 0 then (store.lived file events).disk else some (text.take (n - 1))) ∧
            (0 < n → (store.read (store.lived file (events ++ [.stopped o n])).disk = none ↔
              n ≤ text.length)) := by
  have same := store.synced file events
  rcases store.steps_cases o (store.lived file events).disk with
    ⟨none_, -⟩ | ⟨s, s', held, written, steps, -⟩
  · refine .inl fun n => ?_
    rw [lived_append_single, Saver.step, ← same, none_, List.take_nil]
    show State.mk (store.read (store.lived file events).disk) (store.lived file events).disk = _
    rw [same]
  · refine .inr ⟨store.text s', ?_, by simp [store.whole held written], fun n => ?_⟩
    · rw [lived_append_single, Saver.step, ← same, steps]
      exact after_writes _ _
    · have disk : (store.lived file (events ++ [.stopped o n])).disk =
          if n = 0 then (store.lived file events).disk else some ((store.text s').take (n - 1)) := by
        rw [lived_append_single, Saver.step, ← same, steps]
        show Saver.after _ _ = _
        cases n with
        | zero => rfl
        | succ n => exact after_take_writes n _ _
      refine ⟨disk, fun begun => ?_⟩
      rw [disk, if_neg (Nat.ne_of_gt begun)]
      constructor
      · intro unread
        by_contra late
        rw [List.take_of_length_le (by omega), store.whole held written] at unread
        cases unread
      · intro early
        refine store.cut s' _ _ (List.take_append_drop (n - 1) _) fun empty => ?_
        rw [List.drop_eq_nil_iff] at empty
        omega

end TextStore

end Cronwatch.Theory
