/-
# Theory.Heapq -- a list kept as a binary min-heap by sifting

`heappush` and `heappop` on a plain list, with the two sifts of the standard
library: `siftdown` moves an item towards the root past larger parents, `siftup`
moves the smaller child up until the hole is at a leaf and then sifts the item down
from there.  Items are compared through `key`, so distinct items may be level.

Both sifts move a hole through the list; `HoleReady` says that everything around the
hole is in order, and each sift keeps it.  The results are `heappush_spec`,
`heappop_spec` and `IsHeap.head_le`: the heap order is kept, the items are permuted
and the head is least.
-/
import Mathlib.Order.Lattice
import Mathlib.Data.List.Basic

namespace Cronwatch.Theory.Heapq

set_option autoImplicit false

universe u v

variable {α : Type u} {β : Type v} [LinearOrder β] (key : α → β)

/-! ## The operations -/

/-- The loop of `_siftdown`: `newitem` belongs at `pos` or above. -/
def siftdownLoop (startpos : Nat) (newitem : α) (pos : Nat) (heap : List α) : List α :=
  if startpos < pos then
    match heap[(pos - 1) / 2]? with
    | some parent =>
        if key newitem < key parent then
          siftdownLoop startpos newitem ((pos - 1) / 2) (heap.set pos parent)
        else heap.set pos newitem
    | none => heap
  else heap.set pos newitem
termination_by pos
decreasing_by omega

def siftdown (heap : List α) (startpos pos : Nat) : List α :=
  match heap[pos]? with
  | some newitem => siftdownLoop key startpos newitem pos heap
  | none => heap

/-- The child of `pos` that moves up: the right one unless the left one is smaller. -/
def smallerChild (heap : List α) (pos : Nat) : Nat :=
  match heap[2 * pos + 1]?, heap[2 * pos + 2]? with
  | some left, some right => if key left < key right then 2 * pos + 1 else 2 * pos + 2
  | _, _ => 2 * pos + 1

theorem smallerChild_eq (heap : List α) (pos : Nat) :
    smallerChild key heap pos = 2 * pos + 1 ∨ smallerChild key heap pos = 2 * pos + 2 := by
  unfold smallerChild
  split
  · split <;> simp
  · exact .inl rfl

/-- The loop of `_siftup`: the list with the hole moved to a leaf, and that leaf.
The lookup fails exactly when `pos` has no child. -/
def siftupLoop (heap : List α) (pos : Nat) : List α × Nat :=
  match _found : heap[smallerChild key heap pos]? with
  | some child => siftupLoop (heap.set pos child) (smallerChild key heap pos)
  | none => (heap, pos)
termination_by heap.length - pos
decreasing_by
  have inside := (List.getElem?_eq_some_iff.mp _found).1
  have below := smallerChild_eq key heap pos
  rw [List.length_set]
  omega

def siftup (heap : List α) (pos : Nat) : List α :=
  match heap[pos]? with
  | some newitem =>
      let moved := siftupLoop key heap pos
      siftdown key (moved.1.set moved.2 newitem) pos moved.2
  | none => heap

def heappush (heap : List α) (item : α) : List α :=
  siftdown key (heap ++ [item]) 0 heap.length

/-- The least item and the remaining heap; `none` for the `IndexError` on an empty heap. -/
def heappop (heap : List α) : Option (α × List α) :=
  match heap.getLast? with
  | none => none
  | some lastelt =>
      match heap.dropLast with
      | [] => some (lastelt, [])
      | returnitem :: rest => some (returnitem, siftup key (lastelt :: rest) 0)

/-! ## Heap order -/

/-- `c` is a child of `p` in the implicit tree. -/
def Edge (p c : Nat) : Prop := c = 2 * p + 1 ∨ c = 2 * p + 2

theorem edge_parent {pos : Nat} (positive : 0 < pos) : Edge ((pos - 1) / 2) pos := by
  unfold Edge; omega

theorem Edge.lt {p c : Nat} (edge : Edge p c) : p < c := by
  unfold Edge at edge; omega

theorem Edge.parent_eq {p c : Nat} (edge : Edge p c) : p = (c - 1) / 2 := by
  unfold Edge at edge; omega

def IsHeap (heap : List α) : Prop :=
  ∀ p c (hp : p < heap.length) (hc : c < heap.length), Edge p c → key heap[p] ≤ key heap[c]

/-- All pairs off the hole at `pos` are in order, and so are its parent and children. -/
structure HoleReady (heap : List α) (pos : Nat) : Prop where
  except : ∀ p c (hp : p < heap.length) (hc : c < heap.length), Edge p c → p ≠ pos → c ≠ pos →
    key heap[p] ≤ key heap[c]
  bridge : ∀ p c (hp : p < heap.length) (hc : c < heap.length), Edge p pos → Edge pos c →
    key heap[p] ≤ key heap[c]

/-- The item is not larger than any child of the hole. -/
def FitsAbove (heap : List α) (pos : Nat) (item : α) : Prop :=
  ∀ c (hc : c < heap.length), Edge pos c → key item ≤ key heap[c]

variable {key}

theorem isHeap_nil : IsHeap key ([] : List α) := by
  intro p c hp
  simp at hp

/-- The head of a heap is least. -/
theorem IsHeap.getElem_zero_le {heap : List α} (ordered : IsHeap key heap) :
    ∀ i (hi : i < heap.length), key (heap[0]) ≤ key heap[i] := by
  intro i
  induction i using Nat.strongRecOn with
  | ind i ih =>
      intro hi
      rcases Nat.eq_zero_or_pos i with rfl | positive
      · exact le_rfl
      · have edge := edge_parent positive
        have smaller : (i - 1) / 2 < i := edge.lt
        exact (ih _ smaller (by omega)).trans (ordered _ i (by omega) hi edge)

theorem IsHeap.head_le {x : α} {rest : List α} (ordered : IsHeap key (x :: rest)) :
    ∀ y ∈ x :: rest, key x ≤ key y := by
  intro y member
  obtain ⟨i, hi, rfl⟩ := List.getElem_of_mem member
  exact ordered.getElem_zero_le i hi

/-! ## Moving the hole -/

/-- Filling the hole at `i` from `j` and moving the hole to `j` permutes the items. -/
theorem set_move_perm (heap : List α) (item : α) {i j : Nat} (hi : i < heap.length)
    (hj : j < heap.length) (ne : i ≠ j) :
    ((heap.set i heap[j]).set j item).Perm (heap.set i item) := by
  have hi' : i < (heap.set i item).length := by simpa using hi
  have hj' : j < (heap.set i item).length := by simpa using hj
  have swap := List.set_set_perm hi' hj'
  simpa [List.getElem_set, ne] using swap

section Moves

variable {heap : List α} {item : α} {pos : Nat}

/-- What the hole holds does not matter. -/
theorem HoleReady.set_hole (ready : HoleReady key heap pos) (item : α) :
    HoleReady key (heap.set pos item) pos := by
  constructor
  · intro p c hp hc edge pne cne
    rw [List.getElem_set_ne (Ne.symm pne), List.getElem_set_ne (Ne.symm cne)]
    exact ready.except p c (by simpa using hp) (by simpa using hc) edge pne cne
  · intro p c hp hc above below
    have := above.lt
    have := below.lt
    rw [List.getElem_set_ne (by omega), List.getElem_set_ne (by omega)]
    exact ready.bridge p c (by simpa using hp) (by simpa using hc) above below

theorem FitsAbove.set_hole (fits : FitsAbove key heap pos item) (other : α) :
    FitsAbove key (heap.set pos other) pos item := by
  intro c hc edge
  have := edge.lt
  rw [List.getElem_set_ne (by omega)]
  exact fits c (by simpa using hc) edge

/-- The hole moves to its parent, whose item moves down. -/
theorem HoleReady.moveUp (ready : HoleReady key heap pos) (positive : 0 < pos)
    (inside : pos < heap.length) :
    HoleReady key (heap.set pos heap[(pos - 1) / 2]) ((pos - 1) / 2) := by
  have edge := edge_parent positive
  have upper := edge.lt
  constructor
  · intro p c hp hc pc pne cne
    have hp' : p < heap.length := by simpa using hp
    have hc' : c < heap.length := by simpa using hc
    have notHole : c ≠ pos := fun same => pne (same ▸ pc.parent_eq)
    rw [List.getElem_set_ne notHole.symm]
    by_cases fromHole : p = pos
    · subst fromHole
      rw [List.getElem_set_self]
      exact ready.bridge _ c (by omega) hc' edge pc
    · rw [List.getElem_set_ne (Ne.symm fromHole)]
      exact ready.except p c hp' hc' pc fromHole notHole
  · intro p c hp hc above below
    have hp' : p < heap.length := by simpa using hp
    have hc' : c < heap.length := by simpa using hc
    have higher := above.lt
    have first := ready.except p _ hp' (by omega) above (by omega) (by omega)
    rw [List.getElem_set_ne (by omega)]
    by_cases isHole : c = pos
    · subst isHole
      rw [List.getElem_set_self]
      exact first
    · rw [List.getElem_set_ne (Ne.symm isHole)]
      exact first.trans (ready.except _ c (by omega) hc' below (by omega) isHole)

/-- An item smaller than the parent of the hole fits above the parent's children. -/
theorem FitsAbove.moveUp (ready : HoleReady key heap pos) (positive : 0 < pos)
    (inside : pos < heap.length) (smaller : key item < key heap[(pos - 1) / 2]) :
    FitsAbove key (heap.set pos heap[(pos - 1) / 2]) ((pos - 1) / 2) item := by
  have upper := (edge_parent positive).lt
  intro c hc edge
  have hc' : c < heap.length := by simpa using hc
  by_cases isHole : c = pos
  · subst isHole
    rw [List.getElem_set_self]
    exact smaller.le
  · rw [List.getElem_set_ne (Ne.symm isHole)]
    exact smaller.le.trans (ready.except _ c (by omega) hc' edge (by omega) isHole)

/-- Filling the hole with an item that fits between its parent and its children. -/
theorem HoleReady.fill (ready : HoleReady key heap pos)
    (above : ∀ p (hp : p < heap.length), Edge p pos → key heap[p] ≤ key item)
    (below : FitsAbove key heap pos item) : IsHeap key (heap.set pos item) := by
  intro p c hp hc edge
  have hp' : p < heap.length := by simpa using hp
  have hc' : c < heap.length := by simpa using hc
  have lower := edge.lt
  by_cases toHole : c = pos
  · subst toHole
    rw [List.getElem_set_self, List.getElem_set_ne (by omega)]
    exact above p hp' edge
  · rw [List.getElem_set_ne (Ne.symm toHole)]
    by_cases fromHole : p = pos
    · subst fromHole
      rw [List.getElem_set_self]
      exact below c hc' edge
    · rw [List.getElem_set_ne (Ne.symm fromHole)]
      exact ready.except p c hp' hc' edge fromHole toHole

theorem smallerChild_le {child : α} (found : heap[smallerChild key heap pos]? = some child) :
    ∀ c (hc : c < heap.length), Edge pos c → key child ≤ key heap[c] := by
  intro c hc edge
  have lookup := List.getElem?_eq_getElem hc
  unfold smallerChild at found
  split at found
  · rename_i left right isLeft isRight
    split at found
    · rename_i smaller
      rw [isLeft, Option.some.injEq] at found
      subst found
      rcases edge with rfl | rfl
      · rw [isLeft, Option.some.injEq] at lookup
        rw [lookup]
      · rw [isRight, Option.some.injEq] at lookup
        exact lookup ▸ smaller.le
    · rename_i notSmaller
      rw [isRight, Option.some.injEq] at found
      subst found
      rcases edge with rfl | rfl
      · rw [isLeft, Option.some.injEq] at lookup
        exact lookup ▸ not_lt.mp notSmaller
      · rw [isRight, Option.some.injEq] at lookup
        rw [lookup]
  · rename_i notBoth
    rcases edge with rfl | rfl
    · rw [lookup, Option.some.injEq] at found
      rw [found]
    · exact absurd lookup (notBoth child _ found)

/-- The hole moves to the smaller child, whose item moves up. -/
theorem HoleReady.moveDown (ready : HoleReady key heap pos) {child : α}
    (found : heap[smallerChild key heap pos]? = some child) :
    HoleReady key (heap.set pos child) (smallerChild key heap pos) := by
  have least := smallerChild_le found
  have edge : Edge pos (smallerChild key heap pos) := smallerChild_eq key heap pos
  have lower := edge.lt
  obtain ⟨inside, isChild⟩ := List.getElem?_eq_some_iff.mp found
  constructor
  · intro p c hp hc pc pne cne
    have hp' : p < heap.length := by simpa using hp
    have hc' : c < heap.length := by simpa using hc
    by_cases toHole : c = pos
    · subst toHole
      have upper := pc.lt
      rw [List.getElem_set_self, List.getElem_set_ne (by omega)]
      exact (ready.bridge p _ hp' inside pc edge).trans_eq (congrArg key isChild)
    · rw [List.getElem_set_ne (Ne.symm toHole)]
      by_cases fromHole : p = pos
      · subst fromHole
        rw [List.getElem_set_self]
        exact least c hc' pc
      · rw [List.getElem_set_ne (Ne.symm fromHole)]
        exact ready.except p c hp' hc' pc fromHole toHole
  · intro p c hp hc above below
    have hc' : c < heap.length := by simpa using hc
    have further := below.lt
    have same : p = pos := above.parent_eq.trans edge.parent_eq.symm
    subst same
    rw [List.getElem_set_self, List.getElem_set_ne (by omega)]
    exact (congrArg key isChild).symm.trans_le
      (ready.except _ c inside hc' below (by omega) (by omega))

end Moves

/-! ## The sifts -/

theorem siftdownLoop_spec (item : α) :
    ∀ (pos : Nat) (heap : List α), pos < heap.length → HoleReady key heap pos →
      FitsAbove key heap pos item →
      IsHeap key (siftdownLoop key 0 item pos heap) ∧
        (siftdownLoop key 0 item pos heap).Perm (heap.set pos item) := by
  intro pos
  induction pos using Nat.strongRecOn with
  | ind pos ih =>
      intro heap inside ready below
      rw [siftdownLoop]
      by_cases positive : 0 < pos
      · have edge := edge_parent positive
        have upper := edge.lt
        have parent := List.getElem?_eq_getElem (l := heap) (i := (pos - 1) / 2) (by omega)
        simp only [positive, if_true, parent]
        split
        · rename_i smaller
          obtain ⟨ordered, perm⟩ := ih _ upper (heap.set pos heap[(pos - 1) / 2])
            (by rw [List.length_set]; omega) (ready.moveUp positive inside)
            (FitsAbove.moveUp ready positive inside smaller)
          exact ⟨ordered, perm.trans (set_move_perm heap item inside (by omega) (by omega))⟩
        · rename_i notSmaller
          refine ⟨ready.fill (fun p hp above => ?_) below, List.Perm.refl _⟩
          have same := above.parent_eq
          subst same
          exact not_lt.mp notSmaller
      · simp only [positive, if_false]
        refine ⟨ready.fill (fun p hp above => ?_) below, List.Perm.refl _⟩
        have := above.lt
        omega

theorem siftupLoop_spec (item : α) (heap : List α) (pos : Nat) (inside : pos < heap.length)
    (ready : HoleReady key heap pos) :
    (siftupLoop key heap pos).2 < (siftupLoop key heap pos).1.length ∧
      HoleReady key (siftupLoop key heap pos).1 (siftupLoop key heap pos).2 ∧
      FitsAbove key (siftupLoop key heap pos).1 (siftupLoop key heap pos).2 item ∧
      ((siftupLoop key heap pos).1.set (siftupLoop key heap pos).2 item).Perm
        (heap.set pos item) := by
  induction heap, pos using siftupLoop.induct key with
  | case1 heap pos child found ih =>
      obtain ⟨below, isChild⟩ := List.getElem?_eq_some_iff.mp found
      have lower := Edge.lt (smallerChild_eq key heap pos)
      have unfolded : siftupLoop key heap pos =
          siftupLoop key (heap.set pos child) (smallerChild key heap pos) := by
        rw [siftupLoop]
        split
        · rename_i child' found'
          rw [found, Option.some.injEq] at found'
          rw [found']
        · rename_i missing
          rw [found] at missing
          cases missing
      rw [unfolded]
      obtain ⟨bound, ready', fits, perm⟩ := ih (by rw [List.length_set]; exact below)
        (ready.moveDown found)
      refine ⟨bound, ready', fits, perm.trans ?_⟩
      rw [← isChild]
      exact set_move_perm heap item inside below (by omega)
  | case2 heap pos missing =>
      have unfolded : siftupLoop key heap pos = (heap, pos) := by
        rw [siftupLoop]
        split
        · rename_i child' found'
          rw [missing] at found'
          cases found'
        · rfl
      rw [unfolded]
      refine ⟨inside, ready, fun c hc edge => ?_, List.Perm.refl _⟩
      -- a child of `pos` would make the lookup of the smaller child succeed
      have outside := List.getElem?_eq_none_iff.mp missing
      have hc' : c < heap.length := hc
      unfold smallerChild at outside
      split at outside
      · rename_i right _ isRight
        have := (List.getElem?_eq_some_iff.mp isRight).1
        split at outside <;> omega
      · unfold Edge at edge
        omega

theorem siftdown_spec {heap : List α} {pos : Nat} {item : α} (found : heap[pos]? = some item)
    (ready : HoleReady key heap pos) (below : FitsAbove key heap pos item) :
    IsHeap key (siftdown key heap 0 pos) ∧ (siftdown key heap 0 pos).Perm heap := by
  obtain ⟨inside, isItem⟩ := List.getElem?_eq_some_iff.mp found
  obtain ⟨ordered, perm⟩ := siftdownLoop_spec item pos heap inside ready below
  have same : heap.set pos item = heap := by rw [← isItem, List.set_getElem_self]
  simp only [siftdown, found]
  exact ⟨ordered, perm.trans (List.Perm.of_eq same)⟩

theorem siftup_spec (item : α) (rest : List α) (ready : HoleReady key (item :: rest) 0) :
    IsHeap key (siftup key (item :: rest) 0) ∧
      (siftup key (item :: rest) 0).Perm (item :: rest) := by
  obtain ⟨bound, ready', fits, perm⟩ := siftupLoop_spec item (item :: rest) 0 (by simp) ready
  simp only [siftup, List.getElem?_cons_zero]
  obtain ⟨ordered, perm'⟩ := siftdown_spec (List.getElem?_set_self bound)
    (ready'.set_hole item) (fits.set_hole item)
  exact ⟨ordered, perm'.trans perm⟩

/-! ## Push and pop -/

theorem heappush_spec {heap : List α} (ordered : IsHeap key heap) (item : α) :
    IsHeap key (heappush key heap item) ∧ (heappush key heap item).Perm (item :: heap) := by
  have found : (heap ++ [item])[heap.length]? = some item := by simp
  have leaf : ∀ c, c < (heap ++ [item]).length → ¬ Edge heap.length c := by
    intro c hc edge
    have := edge.lt
    simp at hc
    omega
  have ready : HoleReady key (heap ++ [item]) heap.length := by
    refine ⟨fun p c hp hc edge pne cne => ?_, fun p c hp hc _ below => absurd below (leaf c hc)⟩
    have hp' : p < heap.length := by simp at hp; omega
    have hc' : c < heap.length := by simp at hc; omega
    rw [List.getElem_append_left hp', List.getElem_append_left hc']
    exact ordered p c hp' hc' edge
  obtain ⟨ordered', perm⟩ := siftdown_spec found ready fun c hc edge => absurd edge (leaf c hc)
  exact ⟨ordered', perm.trans (List.perm_append_singleton item heap)⟩

/-- Dropping the last item and forgetting the root leaves a hole at the root. -/
theorem IsHeap.hole_at_root {root last : α} {others : List α}
    (ordered : IsHeap key (root :: others ++ [last])) : HoleReady key (last :: others) 0 := by
  have same : ∀ i (hi : i < (last :: others).length) (hi' : i < (root :: others ++ [last]).length),
      i ≠ 0 → (last :: others)[i] = (root :: others ++ [last])[i] := by
    intro i hi hi' ne
    cases i with
    | zero => exact absurd rfl ne
    | succ i =>
        have inside : i < others.length := by simpa using hi
        simp [List.getElem_append_left inside]
  constructor
  · intro p c hp hc edge pne cne
    have hp' : p < (root :: others ++ [last]).length := by simp at hp ⊢; omega
    have hc' : c < (root :: others ++ [last]).length := by simp at hc ⊢; omega
    rw [same p hp hp' pne, same c hc hc' cne]
    exact ordered p c hp' hc' edge
  · intro p c _ _ above _
    exact absurd above.lt (Nat.not_lt_zero p)

theorem heappop_eq_none_iff {heap : List α} : heappop key heap = none ↔ heap = [] := by
  unfold heappop
  cases last : heap.getLast? with
  | none => simpa using last
  | some lastelt =>
      have nonempty : heap ≠ [] := by
        rintro rfl
        cases last
      cases heap.dropLast <;> simp [nonempty]

/-- Popping a heap returns its head and keeps the remaining items as a heap. -/
theorem heappop_spec {heap : List α} (ordered : IsHeap key heap) {item : α} {rest : List α}
    (popped : heappop key heap = some (item, rest)) :
    heap.head? = some item ∧ IsHeap key rest ∧ (item :: rest).Perm heap := by
  unfold heappop at popped
  cases last : heap.getLast? with
  | none => simp [last] at popped
  | some lastelt =>
      have split := List.dropLast_append_getLast? lastelt last
      simp only [last] at popped
      cases front : heap.dropLast with
      | nil =>
          simp only [front, Option.some.injEq, Prod.mk.injEq] at popped
          obtain ⟨rfl, rfl⟩ := popped
          rw [← split, front]
          exact ⟨rfl, isHeap_nil, List.Perm.refl _⟩
      | cons returnitem others =>
          simp only [front, Option.some.injEq, Prod.mk.injEq] at popped
          obtain ⟨rfl, rfl⟩ := popped
          rw [front] at split
          subst split
          obtain ⟨ordered', perm⟩ := siftup_spec lastelt others ordered.hole_at_root
          refine ⟨rfl, ordered', (perm.cons returnitem).trans ?_⟩
          exact (List.perm_append_singleton lastelt others).symm.cons returnitem

end Cronwatch.Theory.Heapq
