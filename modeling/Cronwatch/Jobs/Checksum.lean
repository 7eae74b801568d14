/-
# Jobs.Checksum -- the digest of every job's command

`ChecksumStore` keeps a digest for each job, in memory and in a JSON file.  `record`
rewrites the file as a whole, in two steps: it is truncated, then written.  A file that
is missing, or whose text is no JSON, is loaded as no digests; the file between the two
steps is one of these.

`checksum` is the function from commands to digests.  `steps` is not in the source: it
lists the file steps taken so far, for the runs that stop between two of them.
-/
import Cronwatch.Theory.Dict

namespace Cronwatch.Jobs

set_option autoImplicit false

open Cronwatch.Theory

namespace ChecksumStore

/-- The file, as `json.loads` reads its text. -/
inductive File where
  | missing
  | unreadable
  | holds (digests : Dict String String)
deriving DecidableEq

def load : File → Dict String String
  | .holds digests => digests
  | .missing | .unreadable => .empty

/-- A file step of `record`: the job, and the file after the step. -/
structure WriteStep where
  jobName : String
  file : File
deriving DecidableEq

end ChecksumStore

structure ChecksumStore where
  data : Dict String String
  file : ChecksumStore.File
  steps : List ChecksumStore.WriteStep := []

namespace ChecksumStore

/-- `ChecksumStore(path)`. -/
def new (file : File) : ChecksumStore where
  data := load file
  file := file

def fileStep (jobName : String) (file : File) (s : ChecksumStore) : ChecksumStore :=
  { s with file := file, steps := s.steps ++ [⟨jobName, file⟩] }

/-- `write_text`: the file is truncated when it is opened, then written. -/
def save (jobName : String) (s : ChecksumStore) : ChecksumStore :=
  (s.fileStep jobName .unreadable).fileStep jobName (.holds s.data)

variable (checksum : String → String)

def record (jobName command : String) (s : ChecksumStore) : ChecksumStore :=
  save jobName { s with data := s.data.set jobName (checksum command) }

def get (jobName : String) (s : ChecksumStore) : Option String := s.data.get? jobName

def changed (jobName command : String) (s : ChecksumStore) : Bool :=
  match s.get jobName with
  | none => false
  | some stored => stored ≠ checksum command

variable {checksum} {jobName command : String} {s : ChecksumStore}

theorem get_record (name : String) :
    (s.record checksum jobName command).get name =
      if name = jobName then some (checksum command) else s.get name :=
  s.data.get?_set jobName (checksum command) name

@[simp] theorem get_record_self :
    (s.record checksum jobName command).get jobName = some (checksum command) := by
  rw [get_record, if_pos rfl]

theorem get_record_of_ne {name : String} (ne : name ≠ jobName) :
    (s.record checksum jobName command).get name = s.get name := by
  rw [get_record, if_neg ne]

theorem steps_record :
    (s.record checksum jobName command).steps =
      s.steps ++ [⟨jobName, .unreadable⟩,
        ⟨jobName, .holds (s.record checksum jobName command).data⟩] :=
  List.append_assoc ..

theorem changed_iff :
    s.changed checksum jobName command = true ↔
      ∃ stored, s.get jobName = some stored ∧ stored ≠ checksum command := by
  unfold changed
  split
  · rename_i unknown
    simp [unknown]
  · rename_i stored known
    simp [known]

end ChecksumStore

end Cronwatch.Jobs
