/-
# Theory.AppendFile -- a file that grows by lines, when an append is cut short

A record is appended as its text and a line break.  A process that stops while it appends leaves a
part of the text without a break, and the next record goes on in the same line.

`LineCode` says what the texts are: one that stands alone on a line is read, and a line that begins
with a text, or with a part of one, and goes on, is not.  Then the lines of a file are the texts of
the records that were written to the end (`lines_of_whole`), unless an append was cut short inside
the text, or behind it with more to come (`Torn`); and then some line of the file is unreadable, for
ever (`unread_of_torn`).
-/
import Mathlib.Data.List.Induction
import Mathlib.Data.List.Infix

namespace Cronwatch.Theory

set_option autoImplicit false

universe u v w

/-- Records `α` as texts of tokens `τ`, read as values `β`. -/
structure LineCode (τ : Type u) (α : Type v) (β : Type w) where
  text : α → List τ
  read : List τ → Option β
  some_ : ∀ a, text a ≠ []
  behind : ∀ a rest, rest ≠ [] → read (text a ++ rest) = none
  inside : ∀ a part rest, part ++ rest = text a → part ≠ [] → rest ≠ [] →
    ∀ more : List (List τ), (∀ q ∈ more, ∃ b, q <+: text b) → read (part ++ more.flatten) = none

/-- Lines with a break behind each, and what follows the last break. -/
structure AppendFile (τ : Type u) where
  ended : List (List τ) := []
  rest : List τ := []

/-- An append, or one that writes so much of the text and no line break. -/
inductive Appended (α : Type v) where
  | done (a : α)
  | cut (a : α) (written : Nat)

namespace LineCode

variable {τ : Type u} {α : Type v} {β : Type w} (code : LineCode τ α β)

/-- The lines that are not blank. -/
def lines (f : AppendFile τ) : List (List τ) := (f.ended ++ [f.rest]).filter fun line => !line.isEmpty

def append (f : AppendFile τ) : Appended α → AppendFile τ
  | .done a => { ended := f.ended ++ [f.rest ++ code.text a] }
  | .cut a written => { f with rest := f.rest ++ (code.text a).take written }

def file (events : List (Appended α)) : AppendFile τ := events.foldl code.append {}

/-- The record, where all of its text was written. -/
def whole? : Appended α → Option α
  | .done a => some a
  | .cut a written => if (code.text a).length ≤ written then some a else none

/-- Something is written. -/
def Writes : Appended α → Prop
  | .done _ => True
  | .cut _ written => 0 < written

/-- An append was cut short inside the text, or behind it with more to come. -/
def Torn (events : List (Appended α)) : Prop :=
  ∃ before a written after, events = before ++ .cut a written :: after ∧ 0 < written ∧
    (written < (code.text a).length ∨ ∃ e ∈ after, Writes e)

variable {code}

theorem file_append_single (events : List (Appended α)) (e : Appended α) :
    code.file (events ++ [e]) = code.append (code.file events) e :=
  List.foldl_concat ..

/-! ## Nothing torn -/

theorem torn_append {events : List (Appended α)} (torn : code.Torn events) (more : List (Appended α)) :
    code.Torn (events ++ more) := by
  obtain ⟨before, a, written, after, rfl, some_, cut⟩ := torn
  refine ⟨before, a, written, after ++ more, by rw [List.append_assoc, List.cons_append], some_, ?_⟩
  exact cut.imp_right fun ⟨e', member, writes⟩ => ⟨e', List.mem_append_left _ member, writes⟩

/-- Some append was cut short when it had written something. -/
def Hangs (events : List (Appended α)) : Prop :=
  ∃ before a written after, events = before ++ .cut a written :: after ∧ 0 < written

theorem Hangs.append {events : List (Appended α)} (hangs : Hangs events) (e : Appended α) : Hangs (events ++ [e]) := by
  obtain ⟨before, a, written, after, rfl, some_⟩ := hangs
  exact ⟨before, a, written, after ++ [e], by rw [List.append_assoc, List.cons_append], some_⟩

/-- Behind an append that hangs every write tears. -/
theorem Hangs.torn {events : List (Appended α)} (hangs : Hangs events) {e : Appended α} (writes : Writes e) :
    code.Torn (events ++ [e]) := by
  obtain ⟨before, a, written, after, rfl, some_⟩ := hangs
  refine ⟨before, a, written, after ++ [e], by rw [List.append_assoc, List.cons_append], some_, .inr ?_⟩
  exact ⟨e, List.mem_append_right _ (List.mem_singleton.mpr rfl), writes⟩

theorem writes_or (e : Appended α) : Writes e ∨ ∃ a, e = .cut a 0 := by
  cases e with
  | done a => exact .inl trivial
  | cut a written =>
      cases written with
      | zero => exact .inr ⟨a, rfl⟩
      | succ n => exact .inl (Nat.succ_pos n)

theorem append_nothing (f : AppendFile τ) (a : α) : code.append f (.cut a 0) = f := by
  rw [append, List.take_zero, List.append_nil]

theorem whole?_nothing (a : α) : code.whole? (.cut a 0) = none :=
  if_neg fun short => code.some_ a (List.length_eq_zero_iff.mp (Nat.le_zero.mp short))

/-- Where nothing is torn every line is one text, and only the last may lack its break. -/
theorem file_of_whole {events : List (Appended α)} (kept : ¬ code.Torn events) :
    ((code.file events).rest = [] ∧ (code.file events).ended = (events.filterMap code.whole?).map code.text) ∨
      ∃ records a, events.filterMap code.whole? = records ++ [a] ∧
        (code.file events).ended = records.map code.text ∧ (code.file events).rest = code.text a ∧
          Hangs events := by
  induction events using List.reverseRecOn with
  | nil => exact .inl ⟨rfl, rfl⟩
  | append_singleton before e ih =>
      have earlier := ih fun torn => kept (torn_append torn [e])
      rw [file_append_single, List.filterMap_append]
      rcases writes_or e with writes | ⟨a, rfl⟩
      · rcases earlier with ⟨none_, texts⟩ | ⟨-, -, -, -, -, hangs⟩
        · cases e with
          | done a =>
              refine .inl ⟨rfl, ?_⟩
              rw [append, none_, texts, List.map_append]
              rfl
          | cut a written =>
              have all : (code.text a).length ≤ written := by
                by_contra short
                exact kept ⟨before, a, written, [], rfl, writes, .inl (Nat.lt_of_not_le short)⟩
              have is : [Appended.cut a written].filterMap code.whole? = [a] := by
                rw [List.filterMap_cons, whole?, if_pos all, List.filterMap_nil]
              refine .inr ⟨_, a, by rw [is], texts, ?_, before, a, written, [], rfl, writes⟩
              rw [append, none_, List.nil_append, List.take_of_length_le all]
        · exact absurd (hangs.torn writes) kept
      · have none_ : [Appended.cut a 0].filterMap code.whole? = [] := by
          rw [List.filterMap_cons, whole?_nothing, List.filterMap_nil]
        rw [append_nothing, none_, List.append_nil]
        refine earlier.imp_right ?_
        rintro ⟨records, a', are, texts, last, hangs⟩
        exact ⟨records, a', are, texts, last, hangs.append _⟩

theorem filter_texts (records : List α) :
    (records.map code.text).filter (fun line => !line.isEmpty) = records.map code.text := by
  rw [List.filter_eq_self]
  intro line member
  obtain ⟨a, -, rfl⟩ := List.mem_map.mp member
  simpa using code.some_ a

/-- **The lines are the texts** of the records that were written to the end, in their order. -/
theorem lines_of_whole {events : List (Appended α)} (kept : ¬ code.Torn events) :
    lines (code.file events) = (events.filterMap code.whole?).map code.text := by
  rcases file_of_whole kept with ⟨none_, texts⟩ | ⟨records, a, are, texts, last, -⟩
  · rw [lines, none_, texts, List.filter_append, filter_texts]
    exact List.append_nil _
  · have all : records.map code.text ++ [code.text a] = (records ++ [a]).map code.text := by
      rw [List.map_append, List.map_singleton]
    rw [lines, texts, last, are, all, filter_texts]

/-! ## Something torn -/

variable (code) in
/-- A line that is not read, whatever is appended to it. -/
structure Lost (line : List τ) : Prop where
  some_ : line ≠ []
  read : ∀ more : List (List τ), (∀ q ∈ more, ∃ b, q <+: code.text b) →
    code.read (line ++ more.flatten) = none

theorem Lost.unread {line : List τ} (lost : code.Lost line) : code.read line = none := by
  have alone := lost.read [] (fun q member => by cases member)
  rwa [List.flatten_nil, List.append_nil] at alone

theorem Lost.append {line q : List τ} (lost : code.Lost line) (front : ∃ b, q <+: code.text b) :
    code.Lost (line ++ q) where
  some_ := List.append_ne_nil_of_left_ne_nil lost.some_ q
  read more printed := by
    rw [List.append_assoc, ← List.flatten_cons]
    exact lost.read (q :: more) (List.forall_mem_cons.mpr ⟨front, printed⟩)

theorem lost_behind (a : α) {q : List τ} (some_ : q ≠ []) : code.Lost (code.text a ++ q) where
  some_ := List.append_ne_nil_of_left_ne_nil (code.some_ a) q
  read more _ := by
    rw [List.append_assoc]
    exact code.behind a _ (List.append_ne_nil_of_left_ne_nil some_ _)

theorem lost_inside {a : α} {part rest : List τ} (cut : part ++ rest = code.text a) (some_ : part ≠ [])
    (short : rest ≠ []) : code.Lost part where
  some_ := some_
  read := code.inside a part rest cut some_ short

variable (code) in
/-- What may stand behind the last break. -/
inductive Stem : List τ → Prop
  | nothing : Stem []
  | whole (a : α) : Stem (code.text a)
  | lost {line : List τ} : code.Lost line → Stem line

theorem Stem.read {line : List τ} (stem : code.Stem line) (some_ : (!line.isEmpty) = true) :
    (∃ a, line = code.text a) ∨ code.read line = none := by
  cases stem with
  | nothing => cases some_
  | whole a => exact .inl ⟨a, rfl⟩
  | lost is => exact .inr is.unread

/-- **What is written** behind a stem makes a stem, and behind something a lost one. -/
theorem Stem.append {line : List τ} (stem : code.Stem line) (a : α) (written : Nat) :
    code.Stem (line ++ (code.text a).take written) ∧
      (line ≠ [] → 0 < written → code.Lost (line ++ (code.text a).take written)) ∧
        (0 < written → written < (code.text a).length → code.Lost (line ++ (code.text a).take written)) := by
  have cut : (code.text a).take written ++ (code.text a).drop written = code.text a := List.take_append_drop ..
  have front : ∃ b, (code.text a).take written <+: code.text b := ⟨a, List.take_prefix _ _⟩
  have begun : 0 < written → (code.text a).take written ≠ [] := by
    intro positive empty
    rcases List.take_eq_nil_iff.mp empty with zero | none_
    · omega
    · exact code.some_ a none_
  by_cases positive : 0 < written
  · cases stem with
    | nothing =>
        rw [List.nil_append]
        by_cases short : written < (code.text a).length
        · have rest : (code.text a).drop written ≠ [] := by
            rw [ne_eq, List.drop_eq_nil_iff]
            omega
          have lost := code.lost_inside cut (begun positive) rest
          exact ⟨.lost lost, fun _ _ => lost, fun _ _ => lost⟩
        · rw [List.take_of_length_le (Nat.le_of_not_lt short)]
          exact ⟨.whole a, fun impossible => absurd rfl impossible, fun _ less => absurd less short⟩
    | whole b =>
        have lost := code.lost_behind b (begun positive)
        exact ⟨.lost lost, fun _ _ => lost, fun _ _ => lost⟩
    | lost is =>
        have lost := is.append front
        exact ⟨.lost lost, fun _ _ => lost, fun _ _ => lost⟩
  · have zero : written = 0 := Nat.eq_zero_of_not_pos positive
    subst zero
    rw [List.take_zero, List.append_nil]
    exact ⟨stem, fun _ impossible => absurd impossible positive, fun impossible => absurd impossible positive⟩

variable (code) in
/-- Lines that are one text or not read, and a stem behind them. -/
structure Sound (f : AppendFile τ) : Prop where
  stem : code.Stem f.rest
  each : ∀ line ∈ f.ended, (∃ a, line = code.text a) ∨ code.read line = none

variable (code) in
/-- Some line is not read, whatever is appended to the file. -/
def Broken (f : AppendFile τ) : Prop :=
  (∃ line ∈ f.ended, line ≠ [] ∧ code.read line = none) ∨ code.Lost f.rest

/-- The line that an append ends. -/
theorem Stem.ended {line : List τ} (stem : code.Stem line) (a : α) :
    (line = [] ∧ line ++ code.text a = code.text a) ∨ code.Lost (line ++ code.text a) := by
  by_cases none_ : line = []
  · exact .inl ⟨none_, by rw [none_, List.nil_append]⟩
  · have all := (stem.append a (code.text a).length).2.1 none_ (List.length_pos_iff.mpr (code.some_ a))
    rw [List.take_length] at all
    exact .inr all

theorem Sound.append {f : AppendFile τ} (sound : code.Sound f) (e : Appended α) : code.Sound (code.append f e) := by
  cases e with
  | done a =>
      refine ⟨.nothing, fun line member => ?_⟩
      rcases List.mem_append.mp member with earlier | last
      · exact sound.each line earlier
      · obtain rfl := List.mem_singleton.mp last
        rcases sound.stem.ended a with ⟨-, same⟩ | lost
        · exact .inl ⟨a, same⟩
        · exact .inr lost.unread
  | cut a written => exact ⟨(sound.stem.append a written).1, sound.each⟩

theorem Broken.append {f : AppendFile τ} (broken : code.Broken f) (e : Appended α) :
    code.Broken (code.append f e) := by
  cases e with
  | done a =>
      refine .inl ?_
      rcases broken with ⟨line, member, some_, unread⟩ | lost
      · exact ⟨line, List.mem_append_left _ member, some_, unread⟩
      · have longer := lost.append ⟨a, List.prefix_refl (code.text a)⟩
        exact ⟨_, List.mem_append_right _ (List.mem_singleton.mpr rfl), longer.some_, longer.unread⟩
  | cut a written => exact broken.imp_right fun lost => lost.append ⟨a, List.take_prefix _ _⟩

/-- A write behind what has no break breaks the file. -/
theorem Sound.broken {f : AppendFile τ} (sound : code.Sound f) (some_ : f.rest ≠ []) {e : Appended α}
    (writes : Writes e) : code.Broken (code.append f e) := by
  cases e with
  | done a =>
      rcases sound.stem.ended a with ⟨none_, -⟩ | lost
      · exact absurd none_ some_
      · exact .inl ⟨_, List.mem_append_right _ (List.mem_singleton.mpr rfl), lost.some_, lost.unread⟩
  | cut a written => exact .inr ((sound.stem.append a written).2.1 some_ writes)

theorem torn_cases {events : List (Appended α)} {e : Appended α} (torn : code.Torn (events ++ [e])) :
    code.Torn events ∨ (Hangs events ∧ Writes e) ∨
      ∃ a written, e = .cut a written ∧ 0 < written ∧ written < (code.text a).length := by
  obtain ⟨before, a, written, after, is, some_, cut⟩ := torn
  induction after using List.reverseRecOn with
  | nil =>
      obtain ⟨rfl, same⟩ := List.append_inj' is rfl
      obtain rfl := List.singleton_inj.mp same
      refine .inr (.inr ⟨a, written, rfl, some_, cut.resolve_right ?_⟩)
      rintro ⟨e, member, -⟩
      cases member
  | append_singleton after last _ =>
      rw [← List.cons_append, ← List.append_assoc] at is
      obtain ⟨rfl, same⟩ := List.append_inj' is rfl
      obtain rfl := List.singleton_inj.mp same
      rcases cut with short | ⟨e', member, writes⟩
      · exact .inl ⟨before, a, written, after, rfl, some_, .inl short⟩
      · rcases List.mem_append.mp member with earlier | final
        · exact .inl ⟨before, a, written, after, rfl, some_, .inr ⟨e', earlier, writes⟩⟩
        · obtain rfl := List.mem_singleton.mp final
          exact .inr (.inl ⟨⟨before, a, written, after, rfl, some_⟩, writes⟩)

theorem hangs_cases {events : List (Appended α)} {e : Appended α} (hangs : Hangs (events ++ [e])) :
    Hangs events ∨ ∃ a written, e = .cut a written ∧ 0 < written := by
  obtain ⟨before, a, written, after, is, some_⟩ := hangs
  induction after using List.reverseRecOn with
  | nil =>
      obtain ⟨rfl, same⟩ := List.append_inj' is rfl
      obtain rfl := List.singleton_inj.mp same
      exact .inr ⟨a, written, rfl, some_⟩
  | append_singleton after last _ =>
      rw [← List.cons_append, ← List.append_assoc] at is
      obtain ⟨rfl, -⟩ := List.append_inj' is rfl
      exact .inl ⟨before, a, written, after, rfl, some_⟩

/-- **What the file has**, behind an append that hangs and behind one that is torn. -/
theorem file_sound (events : List (Appended α)) :
    code.Sound (code.file events) ∧
      (Hangs events → (code.file events).rest ≠ [] ∨ code.Broken (code.file events)) ∧
        (code.Torn events → code.Broken (code.file events)) := by
  induction events using List.reverseRecOn with
  | nil =>
      refine ⟨⟨.nothing, fun line member => by cases member⟩, ?_, ?_⟩
      · rintro ⟨before, a, written, after, is, -⟩
        exact absurd is.symm (List.append_ne_nil_of_right_ne_nil _ (List.cons_ne_nil _ _))
      · rintro ⟨before, a, written, after, is, -⟩
        exact absurd is.symm (List.append_ne_nil_of_right_ne_nil _ (List.cons_ne_nil _ _))
  | append_singleton before e ih =>
      obtain ⟨sound, hanging, tearing⟩ := ih
      have later : Hangs before → Writes e → code.Broken (code.append (code.file before) e) := by
        intro hangs writes
        rcases hanging hangs with some_ | broken
        · exact sound.broken some_ writes
        · exact broken.append e
      rw [file_append_single]
      refine ⟨sound.append e, fun hangs => ?_, fun torn => ?_⟩
      · rcases hangs_cases hangs with earlier | ⟨a, written, rfl, some_⟩
        · rcases writes_or e with writes | ⟨a, rfl⟩
          · exact .inr (later earlier writes)
          · rw [append_nothing]
            exact hanging earlier
        · refine .inl (List.append_ne_nil_of_right_ne_nil _ fun empty => ?_)
          rcases List.take_eq_nil_iff.mp empty with zero | none_
          · omega
          · exact code.some_ a none_
      · rcases torn_cases torn with earlier | ⟨hangs, writes⟩ | ⟨a, written, rfl, some_, short⟩
        · exact (tearing earlier).append e
        · exact later hangs writes
        · exact .inr ((sound.stem.append a written).2.2 some_ short)

/-- **A torn file** has a line that is not read, and nothing that is appended repairs it; every other
line that is read is one text. -/
theorem unread_of_torn {events : List (Appended α)} (torn : code.Torn events) (more : List (Appended α)) :
    (∃ line ∈ lines (code.file (events ++ more)), code.read line = none) ∧
      ∀ line ∈ lines (code.file (events ++ more)), (∃ a, line = code.text a) ∨ code.read line = none := by
  obtain ⟨sound, -, tearing⟩ := file_sound (events ++ more)
  constructor
  · rcases tearing (torn_append torn more) with ⟨line, member, some_, unread⟩ | lost
    · exact ⟨line, List.mem_filter.mpr ⟨List.mem_append_left _ member, by simpa using some_⟩, unread⟩
    · refine ⟨_, List.mem_filter.mpr ⟨List.mem_append_right _ (List.mem_singleton.mpr rfl), ?_⟩, lost.unread⟩
      simpa using lost.some_
  · intro line member
    obtain ⟨among, some_⟩ := List.mem_filter.mp member
    rcases List.mem_append.mp among with ended | last
    · exact sound.each line ended
    · obtain rfl := List.mem_singleton.mp last
      exact sound.stem.read some_

end LineCode

end Cronwatch.Theory
