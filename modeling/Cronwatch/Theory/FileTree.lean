/-
# Theory.FileTree -- files in directories, and the walk along a path

What stands at every location of a disk; a location lists names, the innermost first.  The
root is a directory and everything else stands in one, so that `up` from a directory leads to
a directory.

`walk` follows components from a directory to a directory, as the lookup of an operating
system does.  It sees the directories only, so that writing or removing a file changes no walk
(`walk_of_sameDirs`); and directories that were made on the way are walked (`walk_makeDirs`).
-/
import Mathlib.Logic.Function.Basic

namespace Cronwatch.Theory

set_option autoImplicit false

universe u v

inductive Node (α : Type u) where
  | file (content : α)
  | dir

inductive Component (ν : Type u) where
  | up
  | name (n : ν)
deriving DecidableEq

/-- `ENOENT`, `ENOTDIR`, `EISDIR` and `ENAMETOOLONG`. -/
inductive FileError where
  | notFound
  | notADirectory
  | isADirectory
  | nameTooLong
deriving DecidableEq

structure FileTree (ν : Type u) (α : Type v) where
  node : List ν → Option (Node α)
  root : node [] = some .dir
  parents : ∀ n at_, node (n :: at_) ≠ none → node at_ = some .dir

namespace FileTree

variable {ν : Type u} {α : Type v}

def isDir (t : FileTree ν α) (loc : List ν) : Bool :=
  match t.node loc with
  | some .dir => true
  | some (.file _) | none => false

theorem isDir_iff (t : FileTree ν α) (loc : List ν) :
    t.isDir loc = true ↔ t.node loc = some .dir := by
  unfold isDir
  split
  · rename_i found
    simp [found]
  · rename_i found
    simp [found]
  · rename_i found
    simp [found]

/-- A disk with nothing on it. -/
def bare (ν : Type u) (α : Type v) : FileTree ν α where
  node loc := if loc.isEmpty then some .dir else none
  root := rfl
  parents := by
    intro n at_ found
    simp at found

theorem isDir_tail (t : FileTree ν α) {loc : List ν} (dir : t.isDir loc = true) :
    t.isDir loc.tail = true := by
  cases loc with
  | nil => exact dir
  | cons n at_ =>
      rw [isDir_iff] at dir ⊢
      exact t.parents n at_ (by simp [dir])

/-! ## One name -/

def read (t : FileTree ν α) (n : ν) (at_ : List ν) : Except FileError α :=
  match t.node (n :: at_) with
  | none => .error .notFound
  | some .dir => .error .isADirectory
  | some (.file content) => .ok content

theorem node_of_read {t : FileTree ν α} {n : ν} {at_ : List ν} {content : α}
    (held : t.read n at_ = .ok content) : t.node (n :: at_) = some (.file content) := by
  rw [read] at held
  split at held
  · cases held
  · cases held
  · rename_i found
    cases held
    exact found

theorem not_isDir_of_read {t : FileTree ν α} {n : ν} {at_ : List ν} {content : α}
    (held : t.read n at_ = .ok content) : t.isDir (n :: at_) = false := by
  rw [isDir, node_of_read held]

section Edit

variable [DecidableEq ν]

/-- The tree with a file or an empty directory there, in place of no directory. -/
def put (t : FileTree ν α) (n : ν) (at_ : List ν) (x : Node α) (inside : t.isDir at_ = true)
    (free : t.isDir (n :: at_) = false) : FileTree ν α where
  node := Function.update t.node (n :: at_) (some x)
  root := by rw [Function.update_of_ne (by simp), t.root]
  parents := by
    intro m loc found
    have isDir_loc : t.node loc = some .dir := by
      by_cases here : m :: loc = n :: at_
      · obtain ⟨-, rfl⟩ := List.cons.inj here
        exact (t.isDir_iff loc).mp inside
      · rw [Function.update_of_ne here] at found
        exact t.parents m loc found
    have other : loc ≠ n :: at_ := by
      rintro rfl
      rw [(t.isDir_iff _).mpr isDir_loc] at free
      cases free
    rw [Function.update_of_ne other, isDir_loc]

/-- The tree without what is there, which is no directory. -/
def remove (t : FileTree ν α) (n : ν) (at_ : List ν) (free : t.isDir (n :: at_) = false) :
    FileTree ν α where
  node := Function.update t.node (n :: at_) none
  root := by rw [Function.update_of_ne (by simp), t.root]
  parents := by
    intro m loc found
    have other : m :: loc ≠ n :: at_ := by
      intro same
      rw [same, Function.update_self] at found
      exact found rfl
    rw [Function.update_of_ne other] at found
    have isDir_loc := t.parents m loc found
    have other' : loc ≠ n :: at_ := by
      rintro rfl
      rw [(t.isDir_iff _).mpr isDir_loc] at free
      cases free
    rw [Function.update_of_ne other', isDir_loc]

theorem node_put (t : FileTree ν α) (n : ν) (at_ : List ν) (x : Node α)
    (inside : t.isDir at_ = true) (free : t.isDir (n :: at_) = false) (loc : List ν) :
    (t.put n at_ x inside free).node loc = if loc = n :: at_ then some x else t.node loc :=
  Function.update_apply ..

theorem node_remove (t : FileTree ν α) (n : ν) (at_ : List ν) (free : t.isDir (n :: at_) = false)
    (loc : List ν) :
    (t.remove n at_ free).node loc = if loc = n :: at_ then none else t.node loc :=
  Function.update_apply ..

/-- The file is created when it is not there. -/
def write (content : α) (n : ν) (at_ : List ν) (t : FileTree ν α) :
    Except FileError (FileTree ν α) :=
  if inside : t.isDir at_ = true then
    if free : t.isDir (n :: at_) = false then .ok (t.put n at_ (.file content) inside free)
    else .error .isADirectory
  else .error .notFound

def unlink (n : ν) (at_ : List ν) (t : FileTree ν α) : Except FileError (FileTree ν α) :=
  match t.node (n :: at_) with
  | none => .error .notFound
  | some _ =>
      if free : t.isDir (n :: at_) = false then .ok (t.remove n at_ free)
      else .error .isADirectory

end Edit

/-! ## Paths -/

section Walk

variable (fits : ν → Bool)

/-- One component on the way, where a directory has to be. -/
def enter (t : FileTree ν α) (at_ : List ν) : Component ν → Except FileError (List ν)
  | .up => .ok at_.tail
  | .name n =>
      if fits n then
        match t.node (n :: at_) with
        | none => .error .notFound
        | some (.file _) => .error .notADirectory
        | some .dir => .ok (n :: at_)
      else .error .nameTooLong

def walk (t : FileTree ν α) : List ν → List (Component ν) → Except FileError (List ν)
  | at_, [] => .ok at_
  | at_, c :: rest =>
      match t.enter fits at_ c with
      | .error e => .error e
      | .ok next => walk t next rest

/-- The walk that makes the directories that are missing. -/
def makeDirs [DecidableEq ν] (t : FileTree ν α) :
    List ν → List (Component ν) → Except FileError (FileTree ν α × List ν)
  | at_, [] => .ok (t, at_)
  | at_, c :: rest =>
      match t.enter fits at_ c with
      | .ok next => makeDirs t next rest
      | .error e =>
          match e, c with
          | .notFound, .name n =>
              if inside : t.isDir at_ = true then
                if free : t.isDir (n :: at_) = false then
                  makeDirs (t.put n at_ .dir inside free) (n :: at_) rest
                else .error .notADirectory
              else .error .notFound
          | e, _ => .error e

end Walk

/-! ## What a walk sees -/

section Walks

variable {fits : ν → Bool} {t t' : FileTree ν α}

/-- Where a component leads. -/
theorem enter_eq_ok_iff (at_ : List ν) (c : Component ν) (next : List ν) :
    t.enter fits at_ c = .ok next ↔
      (c = .up ∧ next = at_.tail) ∨
        ∃ n, c = .name n ∧ fits n = true ∧ t.isDir (n :: at_) = true ∧ next = n :: at_ := by
  cases c with
  | up => simpa [enter] using eq_comm
  | name n =>
      simp only [reduceCtorEq, false_and, Component.name.injEq, exists_eq_left', false_or]
      rw [enter, isDir]
      split
      · rename_i short
        rw [short]
        cases t.node (n :: at_) with
        | none => simp
        | some x =>
            cases x with
            | file _ => simp
            | dir => simpa using eq_comm
      · rename_i long
        simp [long]

theorem isDir_enter {at_ next : List ν} {c : Component ν} (dir : t.isDir at_ = true)
    (entered : t.enter fits at_ c = .ok next) : t.isDir next = true := by
  rcases (enter_eq_ok_iff at_ c next).mp entered with ⟨-, rfl⟩ | ⟨n, -, -, dir', rfl⟩
  · exact t.isDir_tail dir
  · exact dir'

/-- A walk that gets to its end has entered every part of the path. -/
theorem walk_cons_ok {at_ last : List ν} {c : Component ν} {rest : List (Component ν)}
    (walked : t.walk fits at_ (c :: rest) = .ok last) :
    ∃ next, t.enter fits at_ c = .ok next ∧ t.walk fits next rest = .ok last := by
  rw [walk] at walked
  split at walked
  · cases walked
  · rename_i next entered
    exact ⟨next, entered, walked⟩

/-- A walk from a directory ends in one. -/
theorem isDir_walk {at_ last : List ν} {path : List (Component ν)} (dir : t.isDir at_ = true)
    (walked : t.walk fits at_ path = .ok last) : t.isDir last = true := by
  induction path generalizing at_ with
  | nil =>
      cases walked
      exact dir
  | cons c rest ih =>
      obtain ⟨next, entered, walked⟩ := walk_cons_ok walked
      exact ih (isDir_enter dir entered) walked

theorem enter_of_dirs {at_ next : List ν} {c : Component ν}
    (dirs : ∀ loc, t.isDir loc = true → t'.isDir loc = true)
    (entered : t.enter fits at_ c = .ok next) : t'.enter fits at_ c = .ok next := by
  rw [enter_eq_ok_iff] at entered ⊢
  rcases entered with up | ⟨n, name, short, dir, rfl⟩
  · exact .inl up
  · exact .inr ⟨n, name, short, dirs _ dir, rfl⟩

/-- A walk goes the same way where all the directories are that it went through. -/
theorem walk_of_dirs {at_ last : List ν} {path : List (Component ν)}
    (dirs : ∀ loc, t.isDir loc = true → t'.isDir loc = true)
    (walked : t.walk fits at_ path = .ok last) : t'.walk fits at_ path = .ok last := by
  induction path generalizing at_ with
  | nil => exact walked
  | cons c rest ih =>
      obtain ⟨next, entered, walked⟩ := walk_cons_ok walked
      rw [walk, enter_of_dirs dirs entered]
      exact ih walked

variable [DecidableEq ν]

/-- A tree has the directories that it had, and the new one if it is one. -/
theorem isDir_put (t : FileTree ν α) (n : ν) (at_ : List ν) (x : Node α)
    (inside : t.isDir at_ = true) (free : t.isDir (n :: at_) = false) (loc : List ν) :
    (t.put n at_ x inside free).isDir loc = true ↔
      t.isDir loc = true ∨ (loc = n :: at_ ∧ x = .dir) := by
  rw [isDir_iff, isDir_iff, node_put]
  split
  · rename_i here
    subst here
    have notDir : ¬ t.node (n :: at_) = some .dir := by simp [← isDir_iff, free]
    simp [notDir]
  · rename_i other
    simp [other]

/-- The directories that are made are there, as are those that were. -/
theorem walk_makeDirs {at_ last : List ν} {path : List (Component ν)}
    (made : t.makeDirs fits at_ path = .ok (t', last)) :
    (∀ loc, t.isDir loc = true → t'.isDir loc = true) ∧ t'.walk fits at_ path = .ok last := by
  induction path generalizing t at_ with
  | nil =>
      cases made
      exact ⟨fun _ dir => dir, rfl⟩
  | cons c rest ih =>
      rw [makeDirs] at made
      cases entering : t.enter fits at_ c with
      | ok next =>
          rw [entering] at made
          obtain ⟨dirs, walked⟩ := ih made
          refine ⟨dirs, ?_⟩
          rw [walk, enter_of_dirs dirs entering]
          exact walked
      | error e =>
          rw [entering] at made
          dsimp only at made
          split at made
          · rename_i n
            have short : fits n = true := by
              by_contra long
              rw [enter, if_neg long] at entering
              cases entering
            split at made
            · split at made
              · obtain ⟨dirs, walked⟩ := ih made
                refine ⟨fun loc dir => dirs loc ((t.isDir_put ..).mpr (.inl dir)), ?_⟩
                have entered : t'.enter fits at_ (.name n) = .ok (n :: at_) :=
                  (enter_eq_ok_iff ..).mpr
                    (.inr ⟨n, rfl, short, dirs _ ((t.isDir_put ..).mpr (.inr ⟨rfl, rfl⟩)), rfl⟩)
                rw [walk, entered]
                exact walked
              · cases made
            · cases made
          · cases made

/-! ## Files come and go -/

variable {content : α} {n : ν} {at_ : List ν}

theorem write_of_free (content : α) (inside : t.isDir at_ = true) (free : t.isDir (n :: at_) = false) :
    ∃ t', t.write content n at_ = .ok t' := by
  rw [write, dif_pos inside, dif_pos free]
  exact ⟨_, rfl⟩

/-- A write that succeeds was one of these. -/
theorem write_cases (written : t.write content n at_ = .ok t') :
    ∃ (inside : t.isDir at_ = true) (free : t.isDir (n :: at_) = false),
      t' = t.put n at_ (.file content) inside free := by
  rw [write] at written
  split at written
  · rename_i inside
    split at written
    · rename_i free
      cases written
      exact ⟨inside, free, rfl⟩
    · cases written
  · cases written

/-- **What is written** is read. -/
theorem read_write (written : t.write content n at_ = .ok t') : t'.read n at_ = .ok content := by
  obtain ⟨inside, free, rfl⟩ := write_cases written
  rw [read, node_put, if_pos rfl]

/-- No directory comes or goes when a file is written. -/
theorem isDir_write (written : t.write content n at_ = .ok t') (loc : List ν) :
    t'.isDir loc = t.isDir loc := by
  obtain ⟨inside, free, rfl⟩ := write_cases written
  exact Bool.eq_iff_iff.mpr (by simp [isDir_put])

theorem unlink_of_read (held : t.read n at_ = .ok content) : ∃ t', t.unlink n at_ = .ok t' := by
  rw [unlink, node_of_read held]
  dsimp only
  rw [dif_pos (not_isDir_of_read held)]
  exact ⟨_, rfl⟩

/-- ... or when one is unlinked. -/
theorem isDir_unlink (unlinked : t.unlink n at_ = .ok t') (loc : List ν) :
    t'.isDir loc = t.isDir loc := by
  rw [unlink] at unlinked
  split at unlinked
  · cases unlinked
  · split at unlinked
    · rename_i free
      cases unlinked
      refine Bool.eq_iff_iff.mpr ?_
      rw [isDir_iff, isDir_iff, node_remove]
      split
      · rename_i here
        subst here
        simp [← isDir_iff, free]
      · rfl
    · cases unlinked

/-- **What is unlinked** is not there. -/
theorem read_unlink (unlinked : t.unlink n at_ = .ok t') : t'.read n at_ = .error .notFound := by
  rw [unlink] at unlinked
  split at unlinked
  · cases unlinked
  · split at unlinked
    · cases unlinked
      rw [read, node_remove, if_pos rfl]
    · cases unlinked

end Walks

end FileTree

end Cronwatch.Theory
