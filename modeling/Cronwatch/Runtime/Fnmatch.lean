/-
# Runtime.Fnmatch -- `fnmatch.fnmatch` on POSIX

`*` stands for any text, `?` for any character, `[seq]` for a character of the class and
`[!seq]` for one outside of it; everything else stands for itself, the backslash included.  A
`[` that is not closed stands for itself.

A class is read as `translate` reads it: a `]` in the first place belongs to it, `a-z` is a
range, and empty ranges are dropped before the first character is looked at.

A text without `*`, `?` and `[` is its own pattern (`fnmatch_plain`); `escape` gives every text
a pattern that only it matches (`fnmatch_escape`).
-/
import Cronwatch.Theory.Glob

namespace Cronwatch.Runtime.Fnmatch

set_option autoImplicit false

open Cronwatch.Theory.Glob

/-! ## Classes -/

inductive Item where
  | single (c : Char)
  | range (low high : Char)
deriving DecidableEq

namespace Item

def holds (c : Char) : Item → Bool
  | .single d => c = d
  | .range low high => low ≤ c ∧ c ≤ high

/-- `re` refuses a range that ends before it begins, so `translate` drops it. -/
def isEmpty : Item → Bool
  | .single _ => false
  | .range low high => high < low

end Item

def items : List Char → List Item
  | low :: '-' :: high :: rest => .range low high :: items rest
  | c :: rest => .single c :: items rest
  | [] => []

/-- The `!` that negates a class begins no range. -/
def classItems : List Char → List Item
  | '!' :: rest => .single '!' :: items rest
  | stuff => items stuff

/-- The class of what stands between the brackets.  A range from `!` comes first only where an
empty one has been dropped before it; its `-` is then a character of the class. -/
def bracket (stuff : List Char) (c : Char) : Bool :=
  match (classItems stuff).filter fun item => !item.isEmpty with
  | .single '!' :: rest => !rest.any (Item.holds c)
  | .range '!' high :: rest => !(.single '-' :: .single high :: rest).any (Item.holds c)
  | kept => kept.any (Item.holds c)

/-- How many characters there are before the closing bracket. -/
def closing (rest : List Char) : Option Nat :=
  let start := if rest.head? = some '!' then 1 else 0
  let start := if rest[start]? = some ']' then start + 1 else start
  let stop := start + ((rest.drop start).takeWhile (· ≠ ']')).length
  if stop < rest.length then some stop else none

/-! ## Patterns -/

/-- The pieces of a pattern, after `skip` characters. -/
def translateFrom : Nat → List Char → List (Piece Char)
  | _, [] => []
  | skip + 1, _ :: rest => translateFrom skip rest
  | 0, c :: rest =>
      if c = '*' then
        if rest.head? = some '*' then translateFrom 0 rest else .star :: translateFrom 0 rest
      else if c = '?' then .one (fun _ => true) :: translateFrom 0 rest
      else if c = '[' then
        match closing rest with
        | none => .one (· = '[') :: translateFrom 0 rest
        | some stop => .one (bracket (rest.take stop)) :: translateFrom (stop + 1) rest
      else .one (· = c) :: translateFrom 0 rest

def translate (pattern : List Char) : List (Piece Char) := translateFrom 0 pattern

def fnmatch (name pattern : String) : Bool := covers (translate pattern.toList) name.toList

/-! ## Texts as patterns -/

def isSpecial (c : Char) : Bool := c = '*' ∨ c = '?' ∨ c = '['

/-- No character of the text means anything in a pattern. -/
def Plain (text : List Char) : Prop := ∀ c ∈ text, isSpecial c = false

theorem translate_cons_of_plain {c : Char} (plain : isSpecial c = false) (rest : List Char) :
    translate (c :: rest) = .one (· = c) :: translate rest := by
  simp only [isSpecial, decide_eq_false_iff_not, not_or] at plain
  obtain ⟨star, any, open_⟩ := plain
  rw [translate, translateFrom, if_neg star, if_neg any, if_neg open_, translate]

theorem translate_append {text : List Char} (plain : Plain text) (rest : List Char) :
    translate (text ++ rest) = literal text ++ translate rest := by
  induction text with
  | nil => rfl
  | cons c text ih =>
      rw [Plain, List.forall_mem_cons] at plain
      rw [List.cons_append, translate_cons_of_plain plain.1, ih plain.2]
      rfl

theorem translate_plain {text : List Char} (plain : Plain text) : translate text = literal text := by
  have same := translate_append plain []
  rw [List.append_nil] at same
  rw [same, show translate [] = [] from rfl, List.append_nil]

/-- A wildcard in front stays one piece, whatever it stands before. -/
theorem words_translate_star (rest : List Char) :
    words (translate ('*' :: rest)) = words (.star :: translate rest) := by
  rw [translate, translateFrom, if_pos rfl]
  split
  · rename_i again
    obtain ⟨rest', rfl⟩ := List.head?_eq_some_iff.mp again
    induction rest' with
    | nil => exact (words_star_star []).symm
    | cons c rest' ih =>
        rw [translate, translateFrom, if_pos rfl]
        split
        · rename_i more
          cases more
          exact ih rfl
        · exact (words_star_star _).symm
  · rfl

theorem fnmatch_iff (name pattern : String) :
    fnmatch name pattern = true ↔ name.toList ∈ words (translate pattern.toList) :=
  covers_iff _ _

theorem fnmatch_plain {pattern : String} (plain : Plain pattern.toList) (name : String) :
    fnmatch name pattern = true ↔ name = pattern := by
  rw [fnmatch_iff, translate_plain plain, mem_words_literal, String.toList_inj]

section Wildcards

variable {text : String} (plain : Plain text.toList) (name : String)
include plain

theorem fnmatch_begins : fnmatch name (text ++ "*") = true ↔ text.toList <+: name.toList := by
  rw [fnmatch_iff, String.toList_append, translate_append plain]
  exact mem_words_before_star text.toList name.toList

theorem fnmatch_ends : fnmatch name ("*" ++ text) = true ↔ text.toList <:+ name.toList := by
  rw [fnmatch_iff, String.toList_append]
  show _ ∈ words (translate ('*' :: text.toList)) ↔ _
  rw [words_translate_star, translate_plain plain, mem_words_after_star]

theorem fnmatch_contains :
    fnmatch name ("*" ++ text ++ "*") = true ↔ text.toList <:+: name.toList := by
  rw [fnmatch_iff, String.toList_append, String.toList_append]
  show _ ∈ words (translate ('*' :: (text.toList ++ ['*']))) ↔ _
  rw [words_translate_star, translate_append plain]
  exact mem_words_between_stars text.toList name.toList

end Wildcards

/-! ## A pattern for every text -/

/-- Each special character in brackets of its own. -/
def escape (text : List Char) : List Char :=
  text.flatMap fun c => if isSpecial c then ['[', c, ']'] else [c]

theorem closing_special {c : Char} (special : isSpecial c = true) (rest : List Char) :
    closing (c :: ']' :: rest) = some 1 := by
  simp only [isSpecial, decide_eq_true_eq] at special
  rcases special with rfl | rfl | rfl <;> simp [closing]

theorem bracket_special {c : Char} (special : isSpecial c = true) (d : Char) :
    bracket [c] d = decide (d = c) := by
  simp only [isSpecial, decide_eq_true_eq] at special
  rcases special with rfl | rfl | rfl <;> simp [bracket, classItems, items, Item.isEmpty, Item.holds]

/-- The bracket of a special character is read as that character. -/
theorem translate_bracket {c : Char} (special : isSpecial c = true) (rest : List Char) :
    translate ('[' :: c :: ']' :: rest) = .one (bracket [c]) :: translate rest := by
  rw [translate, translateFrom, if_neg (by decide), if_neg (by decide), if_pos rfl,
    closing_special special]
  rfl

theorem words_escape (text : List Char) : words (translate (escape text)) = words (literal text) := by
  induction text with
  | nil => rfl
  | cons c text ih =>
      have piece : ∀ accepts : Char → Bool, (∀ d, accepts d = decide (d = c)) →
          words (.one accepts :: translate (escape text)) = words (literal (c :: text)) := by
        intro accepts same
        rw [words_cons, ih, funext same]
        exact (words_cons _ _).symm
      rw [escape, List.flatMap_cons, ← escape]
      cases special : isSpecial c with
      | true =>
          rw [if_pos rfl, List.cons_append, List.cons_append, List.cons_append, List.nil_append,
            translate_bracket special]
          exact piece _ (bracket_special special)
      | false =>
          rw [if_neg Bool.false_ne_true, List.cons_append, List.nil_append,
            translate_cons_of_plain special]
          exact piece _ fun d => rfl

/-- **Every text has a pattern of its own.** -/
theorem fnmatch_escape (name text : String) :
    fnmatch name (String.ofList (escape text.toList)) = true ↔ name = text := by
  rw [fnmatch_iff, String.toList_ofList, words_escape, mem_words_literal, String.toList_inj]

theorem escape_ne_empty {text : String} (given : text ≠ "") :
    String.ofList (escape text.toList) ≠ "" := by
  have self := (fnmatch_escape text text).mpr rfl
  intro empty
  rw [empty, fnmatch_plain (by simp [Plain])] at self
  exact given self

example : fnmatch "etl-3" "etl-[0-9]" = true := by decide

example : fnmatch "etl-x" "etl-[!0-9]" = true := by decide

end Cronwatch.Runtime.Fnmatch
