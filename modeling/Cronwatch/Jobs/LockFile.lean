/-
# Jobs.LockFile -- `JobLock.acquire` on a disk

`Jobs.Lock` has the text of the lock file as its state.  Here `acquire` makes the calls that
it makes, on the path that pathlib makes of the directory and the name of the job, and every
exception of a call is either handled or escapes.

There are meant to be two outcomes (`TwoOutcomes`).  `twoOutcomes_iff` says on which disks
there are only these: where the path leads somewhere, and the number in the file, if it has
one, can be asked about.  There `acquire` is that of `Jobs.Lock` (`acquireThere_refines`).  A
job whose name has no slash needs no directory but the given one (`leads_iff_of_plain`).
-/
import Cronwatch.Jobs.Lock
import Cronwatch.Runtime.Files
import Mathlib.Algebra.Group.Int.Defs

namespace Cronwatch.Jobs.LockFile

set_option autoImplicit false

open Cronwatch.Theory Cronwatch.Runtime
open JobLock (KillOutcome pidRunning alreadyRunning)

/-- The process, and the interpreter's limit on the digits of a number; 0 is no limit. -/
structure System extends JobLock.OS where
  maxStrDigits : Nat

/-- `self._lock_file`. -/
def lockFile (lockDir jobName : String) : PurePath :=
  (PurePath.parse lockDir).div (jobName ++ ".lock")

inductive AcquireError where
  | file (e : FileException)
  | python (e : PyException)
deriving DecidableEq

/-- The outcome, the lock and the disk after a call. -/
abbrev Result := Except AcquireError Unit × JobLock × FileSystem

/-- The numbers of the C type `int`, which pids are. -/
def IsCInt (pid : Int) : Prop := -2 ^ 31 ≤ pid ∧ pid < 2 ^ 31

instance (pid : Int) : Decidable (IsCInt pid) := inferInstanceAs (Decidable (_ ∧ _))

namespace System

/-- `int(text.strip())`; `none` is the `ValueError`. -/
def pidOf (system : System) (text : String) : Option Int :=
  let digits := (strip text.toList).countP fun c => (decimalValue? c).isSome
  if system.maxStrDigits ≠ 0 ∧ system.maxStrDigits < digits then none
  else intOf (String.ofList (strip text.toList))

/-- `os.kill(pid, 0)`. -/
def killPid (system : System) (pid : Int) : KillOutcome :=
  if IsCInt pid then system.kill pid
  else .raised (.overflowError "Python int too large to convert to C int")

end System

section Acquire

variable (system : System) (path : PurePath) (lock : JobLock)

/-- `_read_pid`. -/
def readPid (disk : FileSystem) : Except AcquireError (Option Int) :=
  match disk.readText path with
  | .error (.os .notFound) | .error (.valueError _) => .ok none
  | .error e => .error (.file e)
  | .ok text => .ok (system.pidOf text)

def writePid (disk : FileSystem) : Result :=
  match disk.writeText (strOf system.getpid) path with
  | .error e => (.error (.file e), lock, disk)
  | .ok disk => (.ok (), { lock with held := true }, disk)

/-- `acquire` after its first statement. -/
def acquireThere (disk : FileSystem) : Result :=
  match readPid system path disk with
  | .error e => (.error e, lock, disk)
  | .ok none => writePid system path lock disk
  | .ok (some existingPid) =>
      match pidRunning (system.killPid existingPid) with
      | .error e => (.error (.python e), lock, disk)
      | .ok true => (.error (.python (alreadyRunning lock.jobName existingPid)), lock, disk)
      | .ok false =>
          match disk.unlink path with
          | .error e => (.error (.file e), lock, disk)
          | .ok disk => writePid system path lock disk

/-- `JobLock(lock.jobName, lock_dir=lockDir).acquire()`. -/
def acquire (lockDir : String) (disk : FileSystem) : Result :=
  match disk.mkdir (PurePath.parse lockDir) with
  | .error e => (.error (.file e), lock, disk)
  | .ok there => acquireThere system (lockFile lockDir lock.jobName) lock there

/-- `release`, of the lock with this file. -/
def release (path : PurePath) (lock : JobLock) (disk : FileSystem) : Result :=
  if lock.held then
    match disk.unlink path with
    | .error e => (.error (.file e), lock, disk)
    | .ok disk => (.ok (), { lock with held := false }, disk)
  else (.ok (), lock, disk)

/-! ## Two outcomes -/

/-- **The two outcomes** of `acquire`, on a disk with the lock directory: it refuses because
the file names a running process, and leaves the disk as it is; or the lock is held and the
file has the pid of the caller. -/
def TwoOutcomes (there : FileSystem) (result : Result) : Prop :=
  (∃ text pid, there.readText path = .ok text ∧ system.pidOf text = some pid ∧
    (0 < pid ∧ system.killPid pid = .returned) ∧
      result.1 = .error (.python (alreadyRunning lock.jobName pid)) ∧ result.2.2 = there) ∨
  (result.1 = .ok () ∧ result.2.1.held = true ∧
    result.2.2.readText path = .ok (strOf system.getpid))

/-- The number is a C `int`, and `kill` finds a process, or no process, or may not ask.  Of
0 and below it finds groups of processes, which are none. -/
def Askable (pid : Int) : Prop :=
  IsCInt pid ∧
    match system.kill pid with
    | .returned => 0 < pid
    | .processLookupError | .permissionError => True
    | .raised _ => False

structure Acquirable (there : FileSystem) : Prop where
  leads : ∃ place, there.Leads path place
  askable : ∀ text pid, there.readText path = .ok text → system.pidOf text = some pid →
    Askable system pid

end Acquire

section Outcomes

variable {system : System} {path : PurePath} {lock : JobLock} {there : FileSystem}

theorem askable_iff (pid : Int) : Askable system pid ↔
    (system.killPid pid = .returned ∧ 0 < pid) ∨ pidRunning (system.killPid pid) = .ok false := by
  rw [Askable, System.killPid]
  by_cases range : IsCInt pid
  · rw [if_pos range]
    cases system.kill pid <;> simp [range, pidRunning]
  · rw [if_neg range]
    simp [range, pidRunning]

theorem pidRunning_eq_true_iff (answer : KillOutcome) :
    pidRunning answer = .ok true ↔ answer = .returned := by
  cases answer <;> simp [pidRunning]

theorem writePid_of_leads (system : System) (lock : JobLock)
    (leads : ∃ place, there.Leads path place) :
    ∃ after, writePid system path lock there = (.ok (), { lock with held := true }, after) ∧
      after.readText path = .ok (strOf system.getpid) := by
  obtain ⟨after, written⟩ := (FileSystem.writeText_ok_iff _).mpr leads
  refine ⟨after, ?_, FileSystem.readText_writeText written⟩
  rw [writePid, written]

theorem writePid_of_nowhere (system : System) (lock : JobLock)
    (nowhere : ¬ ∃ place, there.Leads path place) :
    ∃ e, writePid system path lock there = (.error (.file e), lock, there) := by
  rw [writePid]
  cases written : there.writeText (strOf system.getpid) path with
  | error e => exact ⟨e, rfl⟩
  | ok disk => exact absurd ((FileSystem.writeText_ok_iff _).mp ⟨disk, written⟩) nowhere

/-- **Writing the pid** is the second outcome, or fails where the path leads nowhere. -/
theorem writePid_iff : (∃ place, there.Leads path place) ↔
    (writePid system path lock there).1 = .ok () ∧
      (writePid system path lock there).2.1.held = true ∧
        (writePid system path lock there).2.2.readText path = .ok (strOf system.getpid) := by
  by_cases leads : ∃ place, there.Leads path place
  · obtain ⟨after, wrote, holds⟩ := writePid_of_leads system lock leads
    rw [wrote]
    exact iff_of_true leads ⟨rfl, rfl, holds⟩
  · obtain ⟨e, failed⟩ := writePid_of_nowhere system lock leads
    rw [failed]
    exact iff_of_false leads (by simp)

/-- `_read_pid` takes a file that is missing, and a path that no file can have, for a lock that
nobody holds; what else a read raises escapes. -/
theorem readPid_of_unread (system : System) {e : FileException}
    (unread : there.readText path = .error e) :
    readPid system path there = .ok none ∨
      (readPid system path there = .error (.file e) ∧ ¬ ∃ place, there.Leads path place) := by
  rw [readPid, unread]
  split
  · exact .inl rfl
  · exact .inl rfl
  · rename_i notMissing _ failed
    cases failed
    refine .inr ⟨rfl, ?_⟩
    rintro ⟨place, leads⟩
    rcases leads.readText with missing | ⟨text, found⟩
    · rw [unread] at missing
      cases missing
      exact notMissing rfl
    · rw [unread] at found
      cases found
  · rename_i failed
    cases failed

theorem twoOutcomes_iff_of_unread {e : FileException} (unread : there.readText path = .error e) :
    TwoOutcomes system path lock there (acquireThere system path lock there) ↔
      ∃ place, there.Leads path place := by
  rw [TwoOutcomes, unread]
  simp only [reduceCtorEq, false_and, exists_false, false_or]
  rcases readPid_of_unread system unread with absent | ⟨escapes, nowhere⟩
  · rw [acquireThere, absent]
    exact writePid_iff.symm
  · rw [acquireThere, escapes]
    exact iff_of_false (by simp) nowhere

/-- The number that is read, and the answer about it, decide. -/
theorem twoOutcomes_iff_of_read {text : String} (found : there.readText path = .ok text) :
    TwoOutcomes system path lock there (acquireThere system path lock there) ↔
      ∀ pid, system.pidOf text = some pid → Askable system pid := by
  obtain ⟨place, leads, -⟩ := FileSystem.leads_of_readText found
  have read_ : readPid system path there = .ok (system.pidOf text) := by rw [readPid, found]
  have refused_iff : ∀ result : Result,
      TwoOutcomes system path lock there result ↔
        (∃ pid, system.pidOf text = some pid ∧ (0 < pid ∧ system.killPid pid = .returned) ∧
          result.1 = .error (.python (alreadyRunning lock.jobName pid)) ∧ result.2.2 = there) ∨
        (result.1 = .ok () ∧ result.2.1.held = true ∧
          result.2.2.readText path = .ok (strOf system.getpid)) := by
    intro result
    simp [TwoOutcomes, found]
  rw [refused_iff, acquireThere, read_]
  cases number : system.pidOf text with
  | none => exact iff_of_true (.inr (writePid_iff.mp ⟨place, leads⟩)) (by simp)
  | some pid =>
      simp only [Option.some.injEq, forall_eq', exists_eq_left', askable_iff]
      cases running : pidRunning (system.killPid pid) with
      | error e =>
          have notReturned : system.killPid pid ≠ .returned := by
            intro returned
            rw [returned] at running
            cases running
          simp [notReturned]
      | ok running_ =>
          cases running_ with
          | true =>
              have returned := (pidRunning_eq_true_iff _).mp running
              simp [returned]
          | false =>
              refine iff_of_true (.inr ?_) (.inr rfl)
              obtain ⟨disk, unlinked, leads'⟩ := FileSystem.unlink_of_readText found
              dsimp only
              rw [unlinked]
              exact writePid_iff.mp leads'

/-- **When `acquire` has only its two outcomes**, on a disk where the lock directory can be
made. -/
theorem twoOutcomes_iff (system : System) (lockDir : String) (lock : JobLock)
    {disk there : FileSystem} (made : disk.mkdir (PurePath.parse lockDir) = .ok there) :
    TwoOutcomes system (lockFile lockDir lock.jobName) lock there
        (acquire system lock lockDir disk) ↔
      Acquirable system (lockFile lockDir lock.jobName) there := by
  rw [acquire, made]
  dsimp only
  cases found : there.readText (lockFile lockDir lock.jobName) with
  | error e =>
      rw [twoOutcomes_iff_of_unread found]
      refine ⟨fun leads => ⟨leads, fun text pid found' => ?_⟩, fun acquirable => acquirable.leads⟩
      rw [found] at found'
      cases found'
  | ok text =>
      obtain ⟨place, leads, -⟩ := FileSystem.leads_of_readText found
      rw [twoOutcomes_iff_of_read found]
      constructor
      · refine fun askable => ⟨⟨place, leads⟩, fun text' pid found' => ?_⟩
        rw [found] at found'
        cases found'
        exact askable pid
      · exact fun acquirable pid => acquirable.askable text pid found

/-! ## Where the two levels meet -/

/-- The process as `Jobs.Lock` has it. -/
def System.os (system : System) : JobLock.OS where
  getpid := system.getpid
  kill := system.killPid

/-- A result on the disk is one on the text of the lock file. -/
structure Refines (path : PurePath) (result : Result)
    (abstract : Except PyException Unit × JobLock × Option String) : Prop where
  outcome : result.1 = abstract.1.mapError .python
  lock : result.2.1 = abstract.2.1
  file : (result.2.2.readText path).toOption = abstract.2.2

theorem writePid_refines (leads : ∃ place, there.Leads path place) :
    Refines path (writePid system path lock there) (JobLock.writePid system.os lock) := by
  obtain ⟨after, wrote, holds⟩ := writePid_of_leads system lock leads
  rw [wrote]
  refine ⟨rfl, rfl, ?_⟩
  rw [holds]
  rfl

/-- **Where the path leads somewhere**, `acquire` on the disk is `acquire` on the text of the
lock file, if numbers may have any length. -/
theorem acquireThere_refines (unlimited : system.maxStrDigits = 0)
    (leads : ∃ place, there.Leads path place) :
    Refines path (acquireThere system path lock there)
      (JobLock.acquire system.os lock (there.readText path).toOption) := by
  obtain ⟨place, leads'⟩ := leads
  rcases leads'.readText with missing | ⟨text, found⟩
  · rw [acquireThere, readPid, missing]
    exact writePid_refines ⟨place, leads'⟩
  · have number : system.pidOf text = JobLock.readPid (some text) := by
      simp [System.pidOf, unlimited, JobLock.readPid]
    have unchanged : (there.readText path).toOption = some text := by rw [found]; rfl
    rw [unchanged, acquireThere, readPid, found, JobLock.acquire]
    dsimp only
    rw [number]
    cases JobLock.readPid (some text) with
    | none => exact writePid_refines ⟨place, leads'⟩
    | some pid =>
        dsimp only [System.os]
        cases pidRunning (system.killPid pid) with
        | error e => exact ⟨rfl, rfl, unchanged⟩
        | ok running =>
            cases running with
            | true => exact ⟨rfl, rfl, unchanged⟩
            | false =>
                obtain ⟨disk, unlinked, leads''⟩ := FileSystem.unlink_of_readText found
                rw [unlinked]
                exact writePid_refines leads''

/-! ## Names without a slash -/

theorem toList_lock (jobName : String) :
    (jobName ++ ".lock").toList = jobName.toList ++ ['.', 'l', 'o', 'c', 'k'] := by
  rw [String.toList_append]
  rfl

/-- The name of the file is neither empty nor made of dots. -/
theorem five_le_length_lock (jobName : String) : 5 ≤ (jobName ++ ".lock").toList.length := by
  rw [toList_lock, List.length_append]
  simp

/-- The file is in the directory itself. -/
theorem components_of_plain (lockDir : String) {jobName : String}
    (plain : '/' ∉ jobName.toList) :
    (lockFile lockDir jobName).root = (PurePath.parse lockDir).root ∧
      (lockFile lockDir jobName).components =
        (PurePath.parse lockDir).components ++ [.name (jobName ++ ".lock").toList] := by
  have long := five_le_length_lock jobName
  have plain' : '/' ∉ (jobName ++ ".lock").toList := by
    rw [toList_lock, List.mem_append]
    simp [plain]
  have named : (jobName ++ ".lock").toList ≠ [] ∧ (jobName ++ ".lock").toList ≠ ['.'] := by
    constructor
    · intro empty
      simp [empty] at long
    · intro dot
      simp [dot] at long
  have notUp : (jobName ++ ".lock").toList ≠ ['.', '.'] := by
    intro dots
    simp [dots] at long
  have inside : lockFile lockDir jobName =
      { PurePath.parse lockDir with
        parts := (PurePath.parse lockDir).parts ++ [(jobName ++ ".lock").toList] } := by
    rw [lockFile, PurePath.div, PurePath.parse_of_plain plain' named]
    rfl
  rw [inside]
  refine ⟨rfl, ?_⟩
  rw [PurePath.components, List.map_append, List.map_singleton, PurePath.component, if_neg notUp,
    PurePath.components]

/-- **A name without a slash** needs no directory but the given one: its lock can be there
unless the name has a NUL or is too long, or is that of a directory. -/
theorem leads_iff_of_plain {lockDir : String} {disk : FileSystem}
    (made : disk.mkdir (PurePath.parse lockDir) = .ok there) {jobName : String}
    (plain : '/' ∉ jobName.toList) :
    ∃ dir, there.tree.walk there.fits (there.start (PurePath.parse lockDir))
        (PurePath.parse lockDir).components = .ok dir ∧
      ((∃ place, there.Leads (lockFile lockDir jobName) place) ↔
        there.accepts (lockFile lockDir jobName) = .ok () ∧
          there.fits (jobName ++ ".lock").toList = true ∧
            there.tree.isDir ((jobName ++ ".lock").toList :: dir) = false) := by
  obtain ⟨dir, walked⟩ := FileSystem.walk_of_mkdir made
  obtain ⟨root, components⟩ := components_of_plain lockDir plain
  have start : there.start (lockFile lockDir jobName) = there.start (PurePath.parse lockDir) := by
    rw [FileSystem.start, root, FileSystem.start]
  refine ⟨dir, walked, ?_⟩
  constructor
  · rintro ⟨⟨name, dir'⟩, located, free⟩
    obtain ⟨accepted, dirs, ends, short, walked'⟩ := FileSystem.locate_eq_ok_iff.mp located
    dsimp only at ends short walked' free
    rw [components] at ends
    obtain ⟨rfl, last⟩ := List.append_inj' ends rfl
    obtain rfl : (jobName ++ ".lock").toList = name := by simpa using last
    rw [start, walked] at walked'
    cases walked'
    exact ⟨accepted, short, free⟩
  · rintro ⟨accepted, short, free⟩
    refine ⟨⟨(jobName ++ ".lock").toList, dir⟩, FileSystem.locate_eq_ok_iff.mpr ?_, free⟩
    exact ⟨accepted, _, components, short, by rw [start, walked]⟩

end Outcomes

/-! ## Names and numbers that escape -/

/-- A disk with an empty directory for the locks. -/
def fresh : FileSystem where
  tree := (FileTree.bare (List Char) String).put "locks".toList [] .dir rfl rfl
  cwd := []
  cwdIsDir := rfl
  nameMax := 255
  pathMax := 4096

/-- ... and with a lock file in it. -/
def holding (text : String) : FileSystem where
  tree := fresh.tree.put "backup.lock".toList ["locks".toList] (.file text) rfl rfl
  cwd := []
  cwdIsDir := rfl
  nameMax := 255
  pathMax := 4096

/-- A process that is alone. -/
def alone : System where
  getpid := 4242
  kill pid := if pid = 4242 ∨ pid ≤ 0 then .returned else .processLookupError
  maxStrDigits := 4300

/-- A lock that a process left behind is taken. -/
theorem stale_taken : ∃ there, (holding "99999999").mkdir (PurePath.parse "/locks") = .ok there ∧
    TwoOutcomes alone (lockFile "/locks" "backup") { jobName := "backup" } there
      (acquire alone { jobName := "backup" } "/locks" (holding "99999999")) := by
  refine ⟨_, rfl, (twoOutcomes_iff alone "/locks" { jobName := "backup" } rfl).mpr ⟨?_, ?_⟩⟩
  · exact ⟨⟨"backup.lock".toList, ["locks".toList]⟩, rfl, rfl⟩
  · intro text pid found number
    have text_ : "99999999" = text := Except.ok.inj found
    subst text_
    have pid_ : (99999999 : Int) = pid := Option.some.inj number
    subst pid_
    exact ⟨by decide, trivial⟩

/-- A name with a slash has no directory for its lock file, and a number that is no pid is more
than `os.kill` takes: neither error is the one that callers wait for. -/
theorem slash_escapes :
    (acquire alone { jobName := "etl/load" } "/locks" fresh).1 =
        .error (.file (.os .notFound)) ∧
      (acquire alone { jobName := "backup" } "/locks" (holding "99999999999999999999")).1 =
        .error (.python (.overflowError "Python int too large to convert to C int")) ∧
      ¬ TwoOutcomes alone (lockFile "/locks" "etl/load") { jobName := "etl/load" } fresh
        (acquire alone { jobName := "etl/load" } "/locks" fresh) := by
  refine ⟨rfl, rfl, ?_⟩
  rintro (⟨text, pid, found, -⟩ | ⟨taken, -⟩)
  · cases found
  · cases taken

end Cronwatch.Jobs.LockFile
