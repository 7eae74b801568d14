/-
# Runtime.Files -- paths and text files

`PurePath` is `pathlib.PurePosixPath`: a root and parts, none of them empty or a dot.
`FileSystem` is what the file calls of a process go to: the files and directories of
`Theory.FileTree`, the working directory, and how long a name and a path may be.  The process
may search every directory and read and write every file, and nothing is a symbolic link.

A path `Leads` to a file, or to where one can be: then, and only then, it can be written
(`writeText_ok_iff`).
-/
import Cronwatch.Theory.FileTree
import Cronwatch.Runtime.Python
import Mathlib.Algebra.GroupWithZero.Nat

namespace Cronwatch.Runtime

set_option autoImplicit false

open Cronwatch.Theory

/-! ## Paths -/

structure PurePath where
  root : List Char
  parts : List (List Char)
deriving DecidableEq

namespace PurePath

/-- Exactly two slashes in front are a root of their own. -/
def rootOf : List Char → List Char
  | '/' :: '/' :: '/' :: _ => ['/']
  | '/' :: '/' :: _ => ['/', '/']
  | '/' :: _ => ['/']
  | _ => []

/-- `Path(text)`. -/
def parse (text : String) : PurePath where
  root := rootOf text.toList
  parts := (text.toList.splitOn '/').filter fun part => part ≠ [] ∧ part ≠ ['.']

/-- `path / text`; an absolute text replaces the path. -/
def div (path : PurePath) (text : String) : PurePath :=
  let other := parse text
  if other.root = [] then { path with parts := path.parts ++ other.parts } else other

def str (path : PurePath) : List Char :=
  if path.root = [] ∧ path.parts = [] then ['.'] else path.root ++ ['/'].intercalate path.parts

def component (part : List Char) : Component (List Char) :=
  if part = ['.', '.'] then .up else .name part

def components (path : PurePath) : List (Component (List Char)) := path.parts.map component

theorem rootOf_of_plain {text : List Char} (plain : '/' ∉ text) : rootOf text = [] := by
  unfold rootOf
  split
  · simp at plain
  · simp at plain
  · simp at plain
  · rfl

/-- A name is the path of one part. -/
theorem parse_of_plain {text : String} (plain : '/' ∉ text.toList)
    (named : text.toList ≠ [] ∧ text.toList ≠ ['.']) :
    parse text = { root := [], parts := [text.toList] } := by
  rw [parse, rootOf_of_plain plain, List.splitOn_eq_singleton plain]
  simp [named]

end PurePath

/-! ## The file system -/

inductive FileException where
  | valueError (message : String)
  | os (error : FileError)
deriving DecidableEq

/-- The lengths are in bytes of UTF-8; `pathMax` counts a NUL at the end. -/
structure FileSystem where
  tree : FileTree (List Char) String
  cwd : List (List Char)
  cwdIsDir : tree.isDir cwd = true
  nameMax : Nat
  pathMax : Nat

def bytes (text : List Char) : Nat := (text.map Char.utf8Size).sum

/-- A name in a directory. -/
structure Place where
  name : List Char
  dir : List (List Char)
deriving DecidableEq

namespace FileSystem

def fits (disk : FileSystem) (name : List Char) : Bool := bytes name ≤ disk.nameMax

/-- Where the lookup of a path starts. -/
def start (disk : FileSystem) (path : PurePath) : List (List Char) :=
  if path.root = [] then disk.cwd else []

/-- What every call does with a path before it looks it up. -/
def accepts (disk : FileSystem) (path : PurePath) : Except FileException Unit :=
  if '\x00' ∈ path.str then .error (.valueError "embedded null byte")
  else if disk.pathMax ≤ bytes path.str then .error (.os .nameTooLong)
  else .ok ()

/-- The lookup of a path that ends in a name. -/
def locate (disk : FileSystem) (path : PurePath) : Except FileException Place :=
  match disk.accepts path with
  | .error e => .error e
  | .ok () =>
      match path.components.reverse with
      | .name last :: dirs =>
          match disk.tree.walk disk.fits (disk.start path) dirs.reverse with
          | .error e => .error (.os e)
          | .ok dir => if disk.fits last then .ok ⟨last, dir⟩ else .error (.os .nameTooLong)
      -- the working directory, the root, or the parent of a directory
      | _ => .error (.os .isADirectory)

def readText (disk : FileSystem) (path : PurePath) : Except FileException String :=
  match disk.locate path with
  | .error e => .error e
  | .ok place =>
      match disk.tree.read place.name place.dir with
      | .error e => .error (.os e)
      | .ok text => .ok text

/-- `path.write_text(text)`. -/
def writeText (text : String) (path : PurePath) (disk : FileSystem) :
    Except FileException FileSystem :=
  match disk.locate path with
  | .error e => .error e
  | .ok place =>
      match written : disk.tree.write text place.name place.dir with
      | .error e => .error (.os e)
      | .ok tree =>
          .ok { disk with
            tree := tree
            cwdIsDir := by rw [FileTree.isDir_write written, disk.cwdIsDir] }

/-- `path.unlink(missing_ok=True)`. -/
def unlink (path : PurePath) (disk : FileSystem) : Except FileException FileSystem :=
  match disk.locate path with
  | .error (.os .notFound) => .ok disk
  | .error e => .error e
  | .ok place =>
      match unlinked : disk.tree.unlink place.name place.dir with
      | .error .notFound => .ok disk
      | .error e => .error (.os e)
      | .ok tree =>
          .ok { disk with
            tree := tree
            cwdIsDir := by rw [FileTree.isDir_unlink unlinked, disk.cwdIsDir] }

/-- `path.mkdir(parents=True, exist_ok=True)`. -/
def mkdir (path : PurePath) (disk : FileSystem) : Except FileException FileSystem :=
  match disk.accepts path with
  | .error e => .error e
  | .ok () =>
      match made : disk.tree.makeDirs disk.fits (disk.start path) path.components with
      | .error e => .error (.os e)
      | .ok (tree, _) =>
          .ok { disk with
            tree := tree
            cwdIsDir := (FileTree.walk_makeDirs made).1 _ disk.cwdIsDir }

/-- The path is that of a file, or of none yet. -/
structure Leads (disk : FileSystem) (path : PurePath) (place : Place) : Prop where
  located : disk.locate path = .ok place
  free : disk.tree.isDir (place.name :: place.dir) = false

/-- The same directories under the same rules. -/
structure SameDirs (disk disk' : FileSystem) : Prop where
  cwd : disk'.cwd = disk.cwd
  nameMax : disk'.nameMax = disk.nameMax
  pathMax : disk'.pathMax = disk.pathMax
  isDir : ∀ loc, disk'.tree.isDir loc = disk.tree.isDir loc

variable {disk disk' : FileSystem} {path : PurePath} {place : Place} {text : String}

theorem isDir_start (disk : FileSystem) (path : PurePath) :
    disk.tree.isDir (disk.start path) = true := by
  rw [start]
  split
  · exact disk.cwdIsDir
  · exact (disk.tree.isDir_iff []).mpr disk.tree.root

/-- A path that is located ends in a name. -/
theorem locate_eq_ok_iff : disk.locate path = .ok place ↔
    disk.accepts path = .ok () ∧ ∃ dirs,
      path.components = dirs ++ [.name place.name] ∧ disk.fits place.name = true ∧
        disk.tree.walk disk.fits (disk.start path) dirs = .ok place.dir := by
  rw [locate]
  cases disk.accepts path with
  | error e => simp
  | ok _ =>
      dsimp only
      split
      · rename_i last dirs ending
        have components : path.components = dirs.reverse ++ [.name last] := by
          rw [← List.reverse_reverse path.components, ending, List.reverse_cons]
        constructor
        · intro located
          split at located
          · cases located
          · rename_i dir walked
            split at located
            · rename_i short
              cases located
              exact ⟨rfl, dirs.reverse, components, short, walked⟩
            · cases located
        · rintro ⟨-, dirs', components', short, walked⟩
          rw [components] at components'
          obtain ⟨rfl, last_⟩ := List.append_inj' components' rfl
          cases last_
          rw [walked]
          dsimp only
          rw [if_pos short]
      · rename_i other
        refine iff_of_false (by simp) ?_
        rintro ⟨-, dirs, components, -, -⟩
        exact other place.name dirs.reverse (by rw [components]; simp)

theorem isDir_of_locate (located : disk.locate path = .ok place) :
    disk.tree.isDir place.dir = true := by
  obtain ⟨-, dirs, -, -, walked⟩ := locate_eq_ok_iff.mp located
  exact FileTree.isDir_walk (disk.isDir_start path) walked

/-- A path leads where it did as long as the directories are the same. -/
theorem Leads.of_sameDirs (leads : disk.Leads path place) (same : disk.SameDirs disk') :
    disk'.Leads path place := by
  obtain ⟨accepted, dirs, components, short, walked⟩ := locate_eq_ok_iff.mp leads.located
  refine ⟨locate_eq_ok_iff.mpr ⟨?_, dirs, components, ?_, ?_⟩, by rw [same.isDir, leads.free]⟩
  · rw [accepts, same.pathMax]
    exact accepted
  · rw [fits, same.nameMax]
    exact short
  · have start_ : disk'.start path = disk.start path := by rw [start, start, same.cwd]
    have fits_ : disk'.fits = disk.fits := by
      funext name
      rw [fits, fits, same.nameMax]
    rw [start_, fits_]
    exact FileTree.walk_of_dirs (fun loc dir => by rw [same.isDir, dir]) walked

/-! ## Calls on a path that leads somewhere -/

theorem leads_of_readText (found : disk.readText path = .ok text) :
    ∃ place, disk.Leads path place ∧ disk.tree.read place.name place.dir = .ok text := by
  rw [readText] at found
  split at found
  · cases found
  · rename_i place located
    split at found
    · cases found
    · rename_i text' held
      cases found
      exact ⟨place, ⟨located, FileTree.not_isDir_of_read held⟩, held⟩

/-- Nothing but the file can be missing where a path leads somewhere. -/
theorem Leads.readText (leads : disk.Leads path place) :
    disk.readText path = .error (.os .notFound) ∨ ∃ text, disk.readText path = .ok text := by
  rw [FileSystem.readText, leads.located]
  dsimp only
  rw [FileTree.read]
  have free := leads.free
  rw [FileTree.isDir] at free
  cases held : disk.tree.node (place.name :: place.dir) with
  | none => exact .inl rfl
  | some x =>
      cases x with
      | file text => exact .inr ⟨text, rfl⟩
      | dir =>
          rw [held] at free
          cases free

theorem writeText_cases (written : disk.writeText text path = .ok disk') :
    ∃ place, disk.Leads path place ∧ disk.SameDirs disk' ∧
      disk'.tree.read place.name place.dir = .ok text := by
  rw [writeText] at written
  split at written
  · cases written
  · rename_i place located
    split at written
    · cases written
    · rename_i tree written'
      cases written
      obtain ⟨-, free, -⟩ := FileTree.write_cases written'
      exact ⟨place, ⟨located, free⟩, ⟨rfl, rfl, rfl, FileTree.isDir_write written'⟩,
        FileTree.read_write written'⟩

/-- **Writing succeeds** where the path leads somewhere, and only there. -/
theorem writeText_ok_iff (text : String) :
    (∃ disk', disk.writeText text path = .ok disk') ↔ ∃ place, disk.Leads path place := by
  constructor
  · rintro ⟨disk', written⟩
    obtain ⟨place, leads, -⟩ := writeText_cases written
    exact ⟨place, leads⟩
  · rintro ⟨place, leads⟩
    obtain ⟨tree, written⟩ := FileTree.write_of_free text
      (isDir_of_locate leads.located) leads.free
    rw [writeText, leads.located]
    dsimp only
    split
    · rename_i e failed
      rw [written] at failed
      cases failed
    · exact ⟨_, rfl⟩

/-- **What is written** is read. -/
theorem readText_writeText (written : disk.writeText text path = .ok disk') :
    disk'.readText path = .ok text := by
  obtain ⟨place, leads, same, held⟩ := writeText_cases written
  rw [FileSystem.readText, (leads.of_sameDirs same).located]
  dsimp only
  rw [held]

/-- **A file that was read** can be unlinked, and the path still leads where it did. -/
theorem unlink_of_readText (found : disk.readText path = .ok text) :
    ∃ disk', disk.unlink path = .ok disk' ∧ ∃ place, disk'.Leads path place := by
  obtain ⟨place, leads, held⟩ := leads_of_readText found
  obtain ⟨tree, unlinked⟩ := FileTree.unlink_of_read held
  rw [unlink, leads.located]
  dsimp only
  split
  · rename_i failed
    rw [unlinked] at failed
    cases failed
  · rename_i failed
    rw [unlinked] at failed
    cases failed
  · rename_i tree' unlinked'
    exact ⟨_, rfl, place, leads.of_sameDirs ⟨rfl, rfl, rfl, FileTree.isDir_unlink unlinked'⟩⟩

/-- **A file that was unlinked** is not found. -/
theorem readText_unlink (found : disk.readText path = .ok text)
    (unlinked : disk.unlink path = .ok disk') : disk'.readText path = .error (.os .notFound) := by
  obtain ⟨place, leads, held⟩ := leads_of_readText found
  rw [unlink, leads.located] at unlinked
  dsimp only at unlinked
  split at unlinked
  · rename_i failed
    obtain ⟨tree, removed⟩ := FileTree.unlink_of_read held
    rw [removed] at failed
    cases failed
  · cases unlinked
  · rename_i tree removed
    have same : disk.SameDirs disk' ∧ disk'.tree = tree := by
      cases unlinked
      exact ⟨⟨rfl, rfl, rfl, FileTree.isDir_unlink removed⟩, rfl⟩
    rw [FileSystem.readText, (leads.of_sameDirs same.1).located]
    dsimp only
    rw [same.2, FileTree.read_unlink removed]

/-- **A directory that was made** is there. -/
theorem walk_of_mkdir (made : disk.mkdir path = .ok disk') :
    ∃ dir, disk'.tree.walk disk'.fits (disk'.start path) path.components = .ok dir := by
  rw [mkdir] at made
  split at made
  · cases made
  · split at made
    · cases made
    · rename_i tree dir made'
      cases made
      exact ⟨dir, (FileTree.walk_makeDirs made').2⟩

end FileSystem

end Cronwatch.Runtime
