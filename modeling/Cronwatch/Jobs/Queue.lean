/-
# Jobs.Queue -- the job queue is a multiset ordered by time

`JobQueue` keeps its entries in a `heapq` list; the heap order is a field, so every
queue value is one the operations can be used on.  `toMultiset` forgets the layout.
`step_refines` shows each operation to be a step of `Theory.PriorityBag` on that
multiset, and `run_refines` does so for any sequence of operations.

Entries are compared by `next_run` alone (`job` is declared with `compare=False`),
so entries of one time are level and any of them may come first.
-/
import Cronwatch.Jobs.Config
import Cronwatch.Runtime.Python
import Cronwatch.Theory.Heapq
import Cronwatch.Theory.PriorityBag

namespace Cronwatch.Jobs

set_option autoImplicit false

open Cronwatch.Theory Cronwatch.Runtime

/-- A job waiting to be executed, ordered by `nextRun`. -/
structure QueuedJob where
  nextRun : DateTime
  job : JobConfig
deriving DecidableEq

structure JobQueue where
  heap : List QueuedJob
  ordered : Heapq.IsHeap QueuedJob.nextRun heap

namespace JobQueue

def empty : JobQueue := ⟨[], Heapq.isHeap_nil⟩

/-- The entries, without their layout in the heap. -/
def toMultiset (q : JobQueue) : Multiset QueuedJob := ↑q.heap

def push (q : JobQueue) (job : JobConfig) (nextRun : DateTime) : JobQueue :=
  ⟨Heapq.heappush QueuedJob.nextRun q.heap ⟨nextRun, job⟩, (Heapq.heappush_spec q.ordered _).1⟩

def peek (q : JobQueue) : Option QueuedJob := q.heap.head?

/-- `heapq.heappop(self._heap)`; the second case is the `IndexError` of an empty heap. -/
def heappop (q : JobQueue) : Option QueuedJob × JobQueue :=
  match popped : Heapq.heappop QueuedJob.nextRun q.heap with
  | some (item, rest) => (some item, ⟨rest, (Heapq.heappop_spec q.ordered popped).2.1⟩)
  | none => (none, q)

def popDue (q : JobQueue) (now : DateTime) : Option QueuedJob × JobQueue :=
  match q.heap.head? with
  | some top => if top.nextRun ≤ now then q.heappop else (none, q)
  | none => (none, q)

/-! ## One pop -/

@[simp] theorem toMultiset_empty : empty.toMultiset = 0 := rfl

@[simp] theorem toMultiset_push (q : JobQueue) (job : JobConfig) (nextRun : DateTime) :
    (q.push job nextRun).toMultiset = ⟨nextRun, job⟩ ::ₘ q.toMultiset :=
  Multiset.coe_eq_coe.mpr (Heapq.heappush_spec q.ordered _).2

theorem least_of_head {q : JobQueue} {top : QueuedJob} (head : q.heap.head? = some top) :
    PriorityBag.Least QueuedJob.nextRun q.toMultiset top := by
  obtain ⟨heap, ordered⟩ := q
  cases heap with
  | nil => simp at head
  | cons x rest =>
      simp only [List.head?_cons, Option.some.injEq] at head
      subst head
      exact ⟨by simp [toMultiset], fun y member => ordered.head_le y (by simpa [toMultiset] using member)⟩

theorem heappop_spec {q : JobQueue} {top : QueuedJob} (head : q.heap.head? = some top) :
    q.heappop.1 = some top ∧ top ::ₘ q.heappop.2.toMultiset = q.toMultiset := by
  unfold heappop
  split
  · rename_i item rest popped
    obtain ⟨isHead, -, perm⟩ := Heapq.heappop_spec q.ordered popped
    rw [head, Option.some.injEq] at isHead
    subst isHead
    exact ⟨rfl, Multiset.coe_eq_coe.mpr perm⟩
  · rename_i failed
    rw [Heapq.heappop_eq_none_iff] at failed
    simp [failed] at head

/-- **`popDue`.**  Either no entry is due and nothing changes, or an entry of least
`nextRun`, which is due, is taken out. -/
theorem popDue_cases (q : JobQueue) (now : DateTime) :
    ((q.popDue now) = (none, q) ∧ ∀ y ∈ q.toMultiset, now < y.nextRun) ∨
      ∃ top, (q.popDue now).1 = some top ∧ top.nextRun ≤ now ∧
        PriorityBag.Least QueuedJob.nextRun q.toMultiset top ∧
        top ::ₘ (q.popDue now).2.toMultiset = q.toMultiset := by
  unfold popDue
  cases head : q.heap.head? with
  | none =>
      left
      rw [List.head?_eq_none_iff] at head
      simp [toMultiset, head]
  | some top =>
      have least := least_of_head head
      by_cases due : top.nextRun ≤ now
      · right
        obtain ⟨answer, left⟩ := heappop_spec head
        dsimp only
        rw [if_pos due]
        exact ⟨top, answer, due, least, left⟩
      · left
        dsimp only
        rw [if_neg due]
        exact ⟨rfl, fun y member => lt_of_lt_of_le (not_le.mp due) (least.2 y member)⟩

theorem popDue_length {q q' : JobQueue} {now : DateTime} {top : QueuedJob}
    (popped : q.popDue now = (some top, q')) : q'.heap.length < q.heap.length := by
  rcases q.popDue_cases now with ⟨idle, -⟩ | ⟨x, -, -, -, left⟩
  · rw [idle] at popped
    cases popped
  · rw [popped] at left
    have := congrArg Multiset.card left
    simp only [toMultiset, Multiset.card_cons, Multiset.coe_card] at this
    omega

/-- The loop of `drain_due`: pop until nothing is due. -/
def drainDue (q : JobQueue) (now : DateTime) : List QueuedJob × JobQueue :=
  match _popped : q.popDue now with
  | (none, q') => ([], q')
  | (some item, q') => (item :: (drainDue q' now).1, (drainDue q' now).2)
termination_by q.heap.length
decreasing_by all_goals exact popDue_length _popped

/-! ## Draining -/

theorem drainDue_of_none {q : JobQueue} {now : DateTime} (idle : q.popDue now = (none, q)) :
    q.drainDue now = ([], q) := by
  rw [drainDue]
  split
  · rename_i q' popped
    rw [idle] at popped
    rw [(Prod.mk.inj popped).2]
  · rename_i item q' popped
    rw [idle] at popped
    cases popped

theorem drainDue_of_some {q q' : JobQueue} {now : DateTime} {item : QueuedJob}
    (popped : q.popDue now = (some item, q')) :
    q.drainDue now = (item :: (q'.drainDue now).1, (q'.drainDue now).2) := by
  rw [drainDue]
  split
  · rename_i q₁ idle
    rw [popped] at idle
    cases idle
  · rename_i item₁ q₁ popped₁
    rw [popped] at popped₁
    cases popped₁
    rfl

/-- **`drainDue`.**  The answer lists the due entries in order of time, the queue
keeps the others. -/
theorem drainDue_spec (now : DateTime) (q : JobQueue) :
    (q.drainDue now).1.Pairwise (fun x y => x.nextRun ≤ y.nextRun) ∧
      (∀ x ∈ (q.drainDue now).1, x.nextRun ≤ now) ∧
      (∀ y ∈ (q.drainDue now).2.toMultiset, now < y.nextRun) ∧
      ↑(q.drainDue now).1 + (q.drainDue now).2.toMultiset = q.toMultiset := by
  induction len : q.heap.length using Nat.strongRecOn generalizing q with
  | ind n ih =>
      rcases q.popDue_cases now with ⟨idle, later⟩ | ⟨top, answer, due, least, left⟩
      · rw [drainDue_of_none idle]
        exact ⟨List.Pairwise.nil, by simp, later, by simp⟩
      · have popped : q.popDue now = (some top, (q.popDue now).2) := by rw [← answer]
        obtain ⟨sorted, allDue, later, whole⟩ := ih _ (len ▸ popDue_length popped) _ rfl
        rw [drainDue_of_some popped]
        refine ⟨List.pairwise_cons.mpr ⟨fun x member => ?_, sorted⟩, ?_, later, ?_⟩
        · have inside : x ∈ (q.popDue now).2.toMultiset := by
            rw [← whole]
            exact Multiset.mem_add.mpr (.inl member)
          exact least.2 x (left ▸ Multiset.mem_cons_of_mem inside)
        · intro x member
          rcases List.mem_cons.mp member with rfl | inRest
          · exact due
          · exact allDue x inRest
        · rw [← left, ← whole, ← Multiset.cons_add]
          rfl

/-! ## Refinement -/

abbrev Op := PriorityBag.Op QueuedJob DateTime

abbrev Answer := PriorityBag.Answer QueuedJob

/-- One call on the queue. -/
def step (q : JobQueue) : Op → Answer × JobQueue
  | .push item => (.done, q.push item.job item.nextRun)
  | .peek => (.item q.peek, q)
  | .popUpTo now => (.item (q.popDue now).1, (q.popDue now).2)
  | .drainUpTo now => (.items (q.drainDue now).1, (q.drainDue now).2)

def run (q : JobQueue) : List Op → List (Op × Answer) × JobQueue
  | [] => ([], q)
  | op :: rest => ((op, (q.step op).1) :: ((q.step op).2.run rest).1, ((q.step op).2.run rest).2)

/-- Every call is a step of the abstract bag. -/
theorem step_refines (q : JobQueue) (op : Op) :
    PriorityBag.Step QueuedJob.nextRun q.toMultiset op (q.step op).1 (q.step op).2.toMultiset := by
  cases op with
  | push item =>
      simp only [step, toMultiset_push]
      exact .push _ item
  | peek =>
      cases head : q.heap.head? with
      | none =>
          have empty : q.toMultiset = 0 := by
            rw [List.head?_eq_none_iff] at head
            simp [toMultiset, head]
          simp only [step, peek, head, empty]
          exact .peekEmpty
      | some top =>
          simp only [step, peek, head]
          exact .peek (least_of_head head)
  | popUpTo now =>
      rcases q.popDue_cases now with ⟨idle, later⟩ | ⟨top, answer, due, least, left⟩
      · simp only [step, idle]
        exact .popNone later
      · simp only [step, answer]
        rw [← left] at least ⊢
        exact .popSome least due
  | drainUpTo now =>
      obtain ⟨sorted, due, later, whole⟩ := drainDue_spec now q
      rw [← whole]
      exact .drain sorted due later

theorem run_refines (q : JobQueue) (ops : List Op) :
    PriorityBag.Run QueuedJob.nextRun q.toMultiset (q.run ops).1 (q.run ops).2.toMultiset := by
  induction ops generalizing q with
  | nil => exact .nil _
  | cons op rest ih => exact .cons (q.step_refines op) (ih _)

theorem run_ops (q : JobQueue) (ops : List Op) : (q.run ops).1.map Prod.fst = ops := by
  induction ops generalizing q with
  | nil => rfl
  | cons op rest ih => simp [run, ih]

/-- **The queue refines a multiset ordered by time.**  Every sequence of calls is a
run of the abstract bag with the same answers, the entries pushed are the entries
returned and the entries left, and a `popDue` that answers nothing changes nothing. -/
theorem refines_priorityBag (q : JobQueue) (ops : List Op) :
    PriorityBag.Run QueuedJob.nextRun q.toMultiset (q.run ops).1 (q.run ops).2.toMultiset ∧
      q.toMultiset + (ops.map PriorityBag.Op.pushed).sum =
        ((q.run ops).1.map fun e => PriorityBag.taken e.1 e.2).sum + (q.run ops).2.toMultiset ∧
      ∀ (q : JobQueue) (now : DateTime), (q.popDue now).1 = none → (q.popDue now).2 = q := by
  refine ⟨q.run_refines ops, ?_, fun q now idle => ?_⟩
  · have account := (q.run_refines ops).conserved
    have pushed : ((q.run ops).1.map fun e => e.1.pushed) = ops.map PriorityBag.Op.pushed := by
      calc ((q.run ops).1.map fun e => e.1.pushed)
          = ((q.run ops).1.map Prod.fst).map PriorityBag.Op.pushed := by
            rw [List.map_map]; rfl
        _ = ops.map PriorityBag.Op.pushed := by rw [run_ops]
    rw [pushed] at account
    exact account
  · rcases q.popDue_cases now with ⟨unchanged, -⟩ | ⟨top, answer, -⟩
    · rw [unchanged]
    · rw [idle] at answer
      cases answer

end JobQueue

end Cronwatch.Jobs
