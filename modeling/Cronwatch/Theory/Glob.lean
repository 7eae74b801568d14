/-
# Theory.Glob -- patterns with wildcards

A pattern is a list of pieces, each the wildcard or a set of letters.  `words` is what it
stands for: one word of each piece, one after the other.  `covers` decides it by letting a
wildcard end at every place of the word in turn, and `covers_iff` says that the two agree.
-/
import Mathlib.Computability.Language

namespace Cronwatch.Theory.Glob

set_option autoImplicit false

universe u

variable {α : Type u}

inductive Piece (α : Type u) where
  /-- Any word. -/
  | star
  /-- Any letter that is accepted. -/
  | one (accepts : α → Bool)

def Piece.words : Piece α → Language α
  | .star => ⊤
  | .one accepts => {w | ∃ a, accepts a = true ∧ w = [a]}

def words (pattern : List (Piece α)) : Language α := (pattern.map Piece.words).prod

def covers : List (Piece α) → List α → Bool
  | [], w => w.isEmpty
  | .star :: rest, w => w.tails.any (covers rest)
  | .one accepts :: rest, w =>
      match w with
      | [] => false
      | a :: w => accepts a && covers rest w

/-- The pattern of one word. -/
def literal [DecidableEq α] (w : List α) : List (Piece α) := w.map fun a => .one (· = a)

theorem words_cons (piece : Piece α) (rest : List (Piece α)) :
    words (piece :: rest) = piece.words * words rest := by
  rw [words, List.map_cons, List.prod_cons, words]

theorem mem_words_nil (w : List α) : w ∈ words ([] : List (Piece α)) ↔ w = [] :=
  Language.mem_one w

/-- A wildcard in front stands for what comes before some suffix. -/
theorem mem_words_star (rest : List (Piece α)) (w : List α) :
    w ∈ words (.star :: rest) ↔ ∃ v ∈ words rest, v <:+ w := by
  rw [words_cons, Language.mem_mul]
  constructor
  · rintro ⟨front, -, v, member, rfl⟩
    exact ⟨v, member, List.suffix_append front v⟩
  · rintro ⟨v, member, front, rfl⟩
    exact ⟨front, trivial, v, member, rfl⟩

theorem mem_words_one (accepts : α → Bool) (rest : List (Piece α)) (w : List α) :
    w ∈ words (.one accepts :: rest) ↔ ∃ a v, accepts a = true ∧ v ∈ words rest ∧ w = a :: v := by
  rw [words_cons, Language.mem_mul]
  constructor
  · rintro ⟨front, ⟨a, accepted, rfl⟩, v, member, rfl⟩
    exact ⟨a, v, accepted, member, rfl⟩
  · rintro ⟨a, v, accepted, member, rfl⟩
    exact ⟨[a], ⟨a, accepted, rfl⟩, v, member, rfl⟩

/-- **`covers` decides the words of a pattern.** -/
theorem covers_iff (pattern : List (Piece α)) (w : List α) :
    covers pattern w = true ↔ w ∈ words pattern := by
  induction pattern generalizing w with
  | nil => rw [mem_words_nil, covers, List.isEmpty_iff]
  | cons piece rest ih =>
      cases piece with
      | star =>
          rw [mem_words_star, covers, List.any_eq_true]
          simp only [List.mem_tails, ih, and_comm]
      | one accepts =>
          rw [mem_words_one]
          cases w with
          | nil => simp [covers]
          | cons a w =>
              rw [covers, Bool.and_eq_true, ih]
              constructor
              · intro ⟨accepted, member⟩
                exact ⟨a, w, accepted, member, rfl⟩
              · rintro ⟨_, _, accepted, member, same⟩
                cases same
                exact ⟨accepted, member⟩

/-- Two wildcards in a row are one. -/
theorem words_star_star (rest : List (Piece α)) :
    words (.star :: .star :: rest) = words (.star :: rest) := by
  ext w
  rw [mem_words_star, mem_words_star]
  constructor
  · rintro ⟨v, member, suffix⟩
    obtain ⟨u, inside, shorter⟩ := (mem_words_star rest v).mp member
    exact ⟨u, inside, shorter.trans suffix⟩
  · rintro ⟨v, member, suffix⟩
    exact ⟨v, (mem_words_star rest v).mpr ⟨v, member, List.suffix_rfl⟩, suffix⟩

theorem mem_words_wildcard (w : List α) : w ∈ words [(.star : Piece α)] := by
  rw [mem_words_star]
  exact ⟨[], (mem_words_nil _).mpr rfl, List.nil_suffix⟩

variable [DecidableEq α]

/-- A word in front of a pattern is a word in front of its words. -/
theorem mem_words_literal_append (u : List α) (rest : List (Piece α)) (w : List α) :
    w ∈ words (literal u ++ rest) ↔ ∃ v ∈ words rest, w = u ++ v := by
  induction u generalizing w with
  | nil => simp [literal]
  | cons a u ih =>
      rw [literal, List.map_cons, List.cons_append, mem_words_one]
      constructor
      · rintro ⟨b, v, same, member, rfl⟩
        obtain ⟨v', member', rfl⟩ := (ih v).mp member
        rw [of_decide_eq_true same]
        exact ⟨v', member', rfl⟩
      · rintro ⟨v, member, rfl⟩
        exact ⟨a, u ++ v, decide_eq_true rfl, (ih (u ++ v)).mpr ⟨v, member, rfl⟩, rfl⟩

theorem mem_words_literal (u w : List α) : w ∈ words (literal u) ↔ w = u := by
  rw [← List.append_nil (literal u), mem_words_literal_append]
  simp [mem_words_nil]

/-- Wildcards on the right, on the left and on both sides: what begins with a word, ends with it
and has it inside. -/
theorem mem_words_before_star (u w : List α) : w ∈ words (literal u ++ [.star]) ↔ u <+: w := by
  rw [mem_words_literal_append]
  constructor
  · rintro ⟨v, -, rfl⟩
    exact List.prefix_append u v
  · rintro ⟨v, rfl⟩
    exact ⟨v, mem_words_wildcard v, rfl⟩

theorem mem_words_after_star (u w : List α) : w ∈ words (.star :: literal u) ↔ u <:+ w := by
  rw [mem_words_star]
  simp [mem_words_literal]

theorem mem_words_between_stars (u w : List α) :
    w ∈ words (.star :: (literal u ++ [.star])) ↔ u <:+: w := by
  rw [mem_words_star, List.infix_iff_prefix_suffix]
  simp only [mem_words_before_star]

end Cronwatch.Theory.Glob
