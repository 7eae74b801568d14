/-
# Theory.Dict -- a finite map that remembers insertion order

`Dict κ ν` is the map a scripting language iterates in insertion order: a list of
entries whose keys are pairwise distinct, the distinctness carried as a field.
Assigning to a held key replaces its value in place, assigning to a new key
appends, erasing drops the entry.  `Enumeration α` is its companion for sets: the
elements of a finite set in the order one iteration visits them.

Everything a client needs about the order is in `entries`; everything else is read
through `get?` (`get?_set`, `get?_erase`, `mem_keys_iff`).
-/
import Mathlib.Data.List.Nodup
import Mathlib.Data.Finset.Card

namespace Cronwatch.Theory

set_option autoImplicit false

universe u v w x y

/-- The elements of a finite set, in the order an iteration visits them. -/
structure Enumeration (α : Type u) where
  elements : List α
  nodup : elements.Nodup
deriving DecidableEq

namespace Enumeration

variable {α : Type u}

def empty : Enumeration α := ⟨[], List.nodup_nil⟩

/-- The set of a list, visited in order of first occurrence. -/
def ofList [DecidableEq α] (xs : List α) : Enumeration α :=
  ⟨xs.reverse.dedup.reverse, List.nodup_reverse.mpr (List.nodup_dedup _)⟩

@[simp] theorem elements_empty : (empty : Enumeration α).elements = [] := rfl

@[simp] theorem mem_ofList [DecidableEq α] (xs : List α) (x : α) :
    x ∈ (ofList xs).elements ↔ x ∈ xs := by
  simp [ofList]

end Enumeration

structure Dict (κ : Type u) (ν : Type v) where
  entries : List (κ × ν)
  keysNodup : (entries.map Prod.fst).Nodup
deriving DecidableEq

namespace Dict

variable {κ : Type u} {ν : Type v}

def empty : Dict κ ν := ⟨[], List.nodup_nil⟩

def keys (d : Dict κ ν) : List κ := d.entries.map Prod.fst

theorem nodup_keys (d : Dict κ ν) : d.keys.Nodup := d.keysNodup

theorem eq_of_entries {d d' : Dict κ ν} (same : d.entries = d'.entries) : d = d' := by
  cases d
  cases d'
  cases same
  rfl

variable [DecidableEq κ]

def get? (d : Dict κ ν) (k : κ) : Option ν := d.entries.lookup k

theorem lookup_cons_eq (e : κ × ν) (rest : List (κ × ν)) (k : κ) :
    (e :: rest).lookup k = if k = e.1 then some e.2 else rest.lookup k := by
  obtain ⟨k₀, v₀⟩ := e
  by_cases h : k = k₀
  · subst h; rw [List.lookup_cons_self, if_pos rfl]
  · have differs : (k == k₀) = false := by simpa using h
    simp [List.lookup_cons, h, differs]

theorem lookup_of_not_mem {k : κ} {es : List (κ × ν)} (absent : k ∉ es.map Prod.fst) :
    es.lookup k = none := by
  rw [List.lookup_eq_none_iff]
  intro e member
  have ne : k ≠ e.1 := fun same => absent (same ▸ List.mem_map_of_mem member)
  simpa using ne

/-- Assignment on the entry list: in place for a held key, appended for a new one. -/
def assign (k : κ) (v : ν) : List (κ × ν) → List (κ × ν)
  | [] => [(k, v)]
  | e :: rest => if e.1 = k then (k, v) :: rest else e :: assign k v rest

theorem mem_keys_assign (k : κ) (v : ν) (es : List (κ × ν)) (k' : κ) :
    k' ∈ (assign k v es).map Prod.fst ↔ k' = k ∨ k' ∈ es.map Prod.fst := by
  induction es with
  | nil => simp [assign]
  | cons e rest ih =>
      by_cases h : e.1 = k
      · subst h; simp [assign]
      · simp only [assign, h, if_false, List.map_cons, List.mem_cons, ih]
        tauto

theorem nodup_assign (k : κ) (v : ν) (es : List (κ × ν)) (nodup : (es.map Prod.fst).Nodup) :
    ((assign k v es).map Prod.fst).Nodup := by
  induction es with
  | nil => simp [assign]
  | cons e rest ih =>
      rw [List.map_cons, List.nodup_cons] at nodup
      by_cases h : e.1 = k
      · subst h; simpa [assign] using nodup
      · simp only [assign, h, if_false, List.map_cons, List.nodup_cons, mem_keys_assign]
        exact ⟨by simpa [h] using nodup.1, ih nodup.2⟩

theorem assign_of_not_mem {k : κ} (v : ν) {es : List (κ × ν)} (new : k ∉ es.map Prod.fst) :
    assign k v es = es ++ [(k, v)] := by
  induction es with
  | nil => rfl
  | cons e rest ih =>
      rw [List.map_cons, List.mem_cons, not_or] at new
      rw [assign, if_neg fun same => new.1 same.symm, ih new.2, List.cons_append]

theorem keys_assign_of_mem {k : κ} (v : ν) {es : List (κ × ν)} (held : k ∈ es.map Prod.fst) :
    (assign k v es).map Prod.fst = es.map Prod.fst := by
  induction es with
  | nil => cases held
  | cons e rest ih =>
      rw [assign]
      by_cases here : e.1 = k
      · rw [if_pos here, List.map_cons, List.map_cons, here]
      · rw [List.map_cons, List.mem_cons] at held
        rw [if_neg here, List.map_cons, List.map_cons, ih (held.resolve_left (Ne.symm here))]

/-- Where the keys of a list are all different, the next entry is appended. -/
theorem assign_of_nodup {k : κ} {v : ν} {held rest : List (κ × ν)}
    (nodup : ((held ++ (k, v) :: rest).map Prod.fst).Nodup) :
    assign k v held = held ++ [(k, v)] := by
  apply assign_of_not_mem
  intro member
  rw [List.map_append] at nodup
  exact (List.nodup_append.mp nodup).2.2 _ member _ List.mem_cons_self rfl

theorem lookup_assign (k : κ) (v : ν) (es : List (κ × ν)) (k' : κ) :
    (assign k v es).lookup k' = if k' = k then some v else es.lookup k' := by
  induction es with
  | nil => simp [assign, lookup_cons_eq]
  | cons e rest ih =>
      by_cases h : e.1 = k
      · subst h
        by_cases h' : k' = e.1 <;> simp [assign, lookup_cons_eq, h']
      · simp only [assign, h, if_false, lookup_cons_eq, ih]
        by_cases h' : k' = e.1
        · have ne : k' ≠ k := fun same => h (h'.symm.trans same)
          simp [h', h]
        · simp [h']

def set (d : Dict κ ν) (k : κ) (v : ν) : Dict κ ν :=
  ⟨assign k v d.entries, nodup_assign k v d.entries d.keysNodup⟩

def erase (d : Dict κ ν) (k : κ) : Dict κ ν :=
  ⟨d.entries.filter fun e => e.1 ≠ k,
    d.keysNodup.sublist (List.filter_sublist.map Prod.fst)⟩

/-- Entries with different keys, none of them held, are added as they are. -/
theorem entries_foldl_set {es : List (κ × ν)} :
    ∀ held : Dict κ ν, ((held.entries ++ es).map Prod.fst).Nodup →
      (es.foldl (fun d e => d.set e.1 e.2) held).entries = held.entries ++ es := by
  induction es with
  | nil => exact fun held _ => (List.append_nil _).symm
  | cons e rest ih =>
      intro held nodup
      have added : (held.set e.1 e.2).entries = held.entries ++ [e] := assign_of_nodup nodup
      rw [List.append_cons, ← added] at nodup
      rw [List.foldl_cons, ih _ nodup, added, List.append_assoc, List.singleton_append]

/-- What a run of assignments leaves under a key is one of the values assigned to it, or
what was there. -/
theorem get?_foldl_set {es : List (κ × ν)} {d : Dict κ ν} {k : κ} {v : ν}
    (found : (es.foldl (fun d e => d.set e.1 e.2) d).get? k = some v) :
    (k, v) ∈ es ∨ d.get? k = some v := by
  induction es generalizing d with
  | nil => exact .inr found
  | cons e rest ih =>
      rcases ih found with later | held
      · exact .inl (List.mem_cons_of_mem e later)
      · have written : (d.set e.1 e.2).get? k = if k = e.1 then some e.2 else d.get? k :=
          lookup_assign e.1 e.2 d.entries k
        rw [written] at held
        split at held
        · rename_i same
          cases held
          exact .inl (same ▸ List.mem_cons_self)
        · exact .inr held

theorem mem_keys_foldl_set (es : List (κ × ν)) (d : Dict κ ν) (k : κ) :
    k ∈ (es.foldl (fun d e => d.set e.1 e.2) d).keys ↔ k ∈ d.keys ∨ k ∈ es.map Prod.fst := by
  induction es generalizing d with
  | nil => simp
  | cons e rest ih =>
      have written : k ∈ (d.set e.1 e.2).keys ↔ k = e.1 ∨ k ∈ d.keys :=
        mem_keys_assign e.1 e.2 d.entries k
      rw [List.foldl_cons, ih, written, List.map_cons, List.mem_cons]
      tauto

@[simp] theorem get?_empty (k : κ) : (empty : Dict κ ν).get? k = none := rfl

theorem get?_set (d : Dict κ ν) (k : κ) (v : ν) (k' : κ) :
    (d.set k v).get? k' = if k' = k then some v else d.get? k' :=
  lookup_assign k v d.entries k'

@[simp] theorem get?_set_self (d : Dict κ ν) (k : κ) (v : ν) : (d.set k v).get? k = some v := by
  rw [get?_set, if_pos rfl]

theorem get?_set_of_ne (d : Dict κ ν) {k k' : κ} (v : ν) (ne : k' ≠ k) :
    (d.set k v).get? k' = d.get? k' := by
  rw [get?_set, if_neg ne]

theorem lookup_filter_ne (k : κ) (es : List (κ × ν)) (k' : κ) :
    (es.filter fun e => e.1 ≠ k).lookup k' = if k' = k then none else es.lookup k' := by
  induction es with
  | nil => simp
  | cons e rest ih =>
      by_cases h : e.1 = k
      · rw [List.filter_cons_of_neg (by simpa using h), ih, lookup_cons_eq]
        by_cases h' : k' = k
        · simp [h']
        · have ne : k' ≠ e.1 := fun same => h' (same.trans h)
          simp [h', ne]
      · rw [List.filter_cons_of_pos (by simpa using h), lookup_cons_eq, ih, lookup_cons_eq]
        by_cases h' : k' = e.1
        · have ne : k' ≠ k := fun same => h (h'.symm.trans same)
          simp [h', h]
        · simp [h']

theorem get?_erase (d : Dict κ ν) (k k' : κ) :
    (d.erase k).get? k' = if k' = k then none else d.get? k' :=
  lookup_filter_ne k d.entries k'

@[simp] theorem mem_keys_set (d : Dict κ ν) (k : κ) (v : ν) (k' : κ) :
    k' ∈ (d.set k v).keys ↔ k' = k ∨ k' ∈ d.keys :=
  mem_keys_assign k v d.entries k'

theorem keys_set_of_mem {d : Dict κ ν} {k : κ} (v : ν) (held : k ∈ d.keys) :
    (d.set k v).keys = d.keys :=
  keys_assign_of_mem v held

theorem keys_set_of_not_mem {d : Dict κ ν} {k : κ} (v : ν) (new : k ∉ d.keys) :
    (d.set k v).keys = d.keys ++ [k] := by
  have entries : (d.set k v).entries = d.entries ++ [(k, v)] := assign_of_not_mem v new
  rw [keys, entries, List.map_append]
  rfl

theorem mem_keys_iff (d : Dict κ ν) (k : κ) : k ∈ d.keys ↔ (d.get? k).isSome := by
  simp only [keys, get?]
  induction d.entries with
  | nil => simp
  | cons e rest ih =>
      rw [List.map_cons, List.mem_cons, lookup_cons_eq, ih]
      by_cases h : k = e.1 <;> simp [h]

theorem mem_entries_iff (d : Dict κ ν) (k : κ) (v : ν) :
    (k, v) ∈ d.entries ↔ d.get? k = some v := by
  obtain ⟨es, nodup⟩ := d
  simp only [get?]
  induction es with
  | nil => simp
  | cons e rest ih =>
      rw [List.map_cons, List.nodup_cons] at nodup
      rw [List.mem_cons, lookup_cons_eq, ih nodup.2]
      by_cases h : k = e.1
      · subst h
        have absent := lookup_of_not_mem nodup.1
        simp [absent, Prod.ext_iff, eq_comm]
      · simp [h, Prod.ext_iff]

/-! ## Rebuilding every entry -/

section Rebuild

variable {ω : Type w} {ε : Type x}

/-- `{k: f(k, v) for k, v in d.items()}`. -/
def mapEntries (f : κ → ν → ω) (d : Dict κ ν) : Dict κ ω :=
  ⟨d.entries.map fun e => (e.1, f e.1 e.2), by
    rw [List.map_map]
    exact d.keysNodup⟩

omit [DecidableEq κ] in
@[simp] theorem entries_mapEntries (f : κ → ν → ω) (d : Dict κ ν) :
    (d.mapEntries f).entries = d.entries.map fun e => (e.1, f e.1 e.2) := rfl

theorem get?_mapEntries (f : κ → ν → ω) (d : Dict κ ν) (k : κ) :
    (d.mapEntries f).get? k = (d.get? k).map (f k) := by
  simp only [get?, entries_mapEntries]
  induction d.entries with
  | nil => rfl
  | cons e rest ih =>
      rw [List.map_cons, lookup_cons_eq, lookup_cons_eq]
      by_cases h : k = e.1
      · subst h; simp
      · simpa [h] using ih

/-- Assigning to a held key rebuilds its entry, and no other. -/
theorem set_mapEntries {f g : κ → ν → ω} {d : Dict κ ν} {k : κ} {v : ν} (held : d.get? k = some v)
    (others : ∀ k', k' ≠ k → g k' = f k') : (d.mapEntries f).set k (g k v) = d.mapEntries g := by
  refine eq_of_entries ?_
  show assign k (g k v) (d.entries.map fun e => (e.1, f e.1 e.2)) =
    d.entries.map fun e => (e.1, g e.1 e.2)
  obtain ⟨es, nodup⟩ := d
  simp only [get?] at held
  induction es with
  | nil => cases held
  | cons e rest ih =>
      rw [List.map_cons, List.nodup_cons] at nodup
      rw [lookup_cons_eq] at held
      rw [List.map_cons, List.map_cons, assign]
      by_cases here : k = e.1
      · subst here
        rw [if_pos rfl] at held
        cases held
        rw [if_pos rfl]
        refine congrArg _ (List.map_congr_left fun e' member => ?_)
        have other : e'.1 ≠ e.1 := fun same => nodup.1 (same ▸ List.mem_map_of_mem member)
        rw [others e'.1 other]
      · rw [if_neg here] at held
        rw [if_neg fun same => here same.symm, ih nodup.2 held, others e.1 fun same => here same.symm]

/-- The same with an `f` that may raise: the first failure is the answer. -/
def traverse (f : κ → ν → Except ε ω) : List (κ × ν) → Except ε (List (κ × ω))
  | [] => .ok []
  | e :: rest =>
      match f e.1 e.2 with
      | .error err => .error err
      | .ok w =>
          match traverse f rest with
          | .error err => .error err
          | .ok ws => .ok ((e.1, w) :: ws)

omit [DecidableEq κ] in
/-- What a traversal that did not fail has gone through. -/
theorem traverse_cons_ok {f : κ → ν → Except ε ω} {e : κ × ν} {rest : List (κ × ν)}
    {ws : List (κ × ω)} (returned : traverse f (e :: rest) = .ok ws) :
    ∃ w ws', f e.1 e.2 = .ok w ∧ traverse f rest = .ok ws' ∧ ws = (e.1, w) :: ws' := by
  rw [traverse] at returned
  cases value : f e.1 e.2 with
  | error err =>
      rw [value] at returned
      cases returned
  | ok w =>
      rw [value] at returned
      cases later : traverse f rest with
      | error err =>
          rw [later] at returned
          cases returned
      | ok ws' =>
          rw [later] at returned
          cases returned
          exact ⟨w, ws', rfl, rfl, rfl⟩

omit [DecidableEq κ] in
theorem keys_traverse {f : κ → ν → Except ε ω} {es : List (κ × ν)} {ws : List (κ × ω)}
    (returned : traverse f es = .ok ws) : ws.map Prod.fst = es.map Prod.fst := by
  induction es generalizing ws with
  | nil =>
      cases returned
      rfl
  | cons e rest ih =>
      obtain ⟨w, ws', -, later, rfl⟩ := traverse_cons_ok returned
      rw [List.map_cons, List.map_cons, ih later]

def mapEntriesM (f : κ → ν → Except ε ω) (d : Dict κ ν) : Except ε (Dict κ ω) :=
  match returned : traverse f d.entries with
  | .error err => .error err
  | .ok ws => .ok ⟨ws, by
      rw [keys_traverse returned]
      exact d.keysNodup⟩

omit [DecidableEq κ] in
theorem traverse_map {α : Type y} {f : κ → ν → Except ε ω} (read : α → κ × ν) {value : α → ω}
    {l : List α} (values : ∀ a ∈ l, f (read a).1 (read a).2 = .ok (value a)) :
    traverse f (l.map read) = .ok (l.map fun a => ((read a).1, value a)) := by
  induction l with
  | nil => rfl
  | cons a rest ih =>
      rw [List.map_cons, traverse, values a List.mem_cons_self]
      dsimp only
      rw [ih fun a' member => values a' (List.mem_cons_of_mem a member)]
      rfl

/-- Writing every value with `g` and reading it back with `f`. -/
theorem mapEntriesM_mapEntries {ρ : Type w} {f : κ → ρ → Except ε ν} {g : κ → ν → ρ}
    {d : Dict κ ν} (back : ∀ k v, d.get? k = some v → f k (g k v) = .ok v) :
    (d.mapEntries g).mapEntriesM f = .ok d := by
  have whole : traverse f (d.mapEntries g).entries = .ok d.entries := by
    rw [entries_mapEntries]
    have values : ∀ e ∈ d.entries, f e.1 (g e.1 e.2) = .ok e.2 := fun e member =>
      back e.1 e.2 ((mem_entries_iff d e.1 e.2).mp member)
    simpa using traverse_map (fun e : κ × ν => (e.1, g e.1 e.2)) values
  unfold mapEntriesM
  split
  · rename_i err failed
    rw [failed] at whole
    cases whole
  · rename_i ws done
    rw [done] at whole
    cases whole
    rfl

omit [DecidableEq κ] in
theorem traverse_returns_iff (f : κ → ν → Except ε ω) (es : List (κ × ν)) :
    (∃ ws, traverse f es = .ok ws) ↔ ∀ e ∈ es, ∃ w, f e.1 e.2 = .ok w := by
  induction es with
  | nil => simp [traverse]
  | cons e rest ih =>
      rw [List.forall_mem_cons, ← ih, traverse]
      cases f e.1 e.2 with
      | error err => simp
      | ok w =>
          cases traverse f rest with
          | error err => simp
          | ok ws => simp

omit [DecidableEq κ] in
theorem mem_traverse {f : κ → ν → Except ε ω} {es : List (κ × ν)} {ws : List (κ × ω)}
    (returned : traverse f es = .ok ws) (k : κ) (w : ω) :
    (k, w) ∈ ws ↔ ∃ v, (k, v) ∈ es ∧ f k v = .ok w := by
  induction es generalizing ws with
  | nil =>
      cases returned
      simp
  | cons e rest ih =>
      obtain ⟨w₀, ws', value, later, rfl⟩ := traverse_cons_ok returned
      rw [List.mem_cons, ih later]
      constructor
      · rintro (⟨⟨⟩⟩ | ⟨v, member, made⟩)
        · exact ⟨e.2, List.mem_cons_self, value⟩
        · exact ⟨v, List.mem_cons_of_mem e member, made⟩
      · rintro ⟨v, member, made⟩
        rcases List.mem_cons.mp member with rfl | later_
        · rw [value] at made
          cases made
          exact .inl rfl
        · exact .inr ⟨v, later_, made⟩

theorem get?_mapEntriesM {f : κ → ν → Except ε ω} {d : Dict κ ν} {d' : Dict κ ω}
    (returned : d.mapEntriesM f = .ok d') (k : κ) (w : ω) :
    d'.get? k = some w ↔ ∃ v, d.get? k = some v ∧ f k v = .ok w := by
  have through : traverse f d.entries = .ok d'.entries := by
    unfold mapEntriesM at returned
    split at returned
    · cases returned
    · rename_i ws done
      cases returned
      exact done
  rw [← mem_entries_iff, mem_traverse through]
  simp only [mem_entries_iff]

/-- `for k, v in d.items(): w = f(k, v)`, with `result[k] = w` where there is a `w`. -/
def filterMapM (f : κ → ν → Except ε (Option ω)) (d : Dict κ ν) : Except ε (Dict κ ω) :=
  match returned : traverse f d.entries with
  | .error err => .error err
  | .ok ws => .ok ⟨ws.filterMap fun e => e.2.map fun w => (e.1, w), by
      have kept : ((ws.filterMap fun e => e.2.map fun w => (e.1, w)).map Prod.fst).Sublist
          (ws.map Prod.fst) := by
        clear returned
        induction ws with
        | nil => exact List.Sublist.refl _
        | cons e rest ih =>
            obtain ⟨k, w⟩ := e
            cases w with
            | none => exact ih.cons k
            | some w => exact ih.cons_cons k
      rw [keys_traverse returned] at kept
      exact d.keysNodup.sublist kept⟩

theorem filterMapM_returns_iff (f : κ → ν → Except ε (Option ω)) (d : Dict κ ν) :
    (∃ d', d.filterMapM f = .ok d') ↔ ∀ k v, d.get? k = some v → ∃ w, f k v = .ok w := by
  have all : (∀ k v, d.get? k = some v → ∃ w, f k v = .ok w) ↔
      ∀ e ∈ d.entries, ∃ w, f e.1 e.2 = .ok w := by
    simp only [← mem_entries_iff, Prod.forall]
  rw [all, ← traverse_returns_iff]
  unfold filterMapM
  split
  · rename_i err failed
    simp [failed]
  · rename_i ws done
    exact iff_of_true ⟨_, rfl⟩ ⟨ws, done⟩

theorem get?_filterMapM {f : κ → ν → Except ε (Option ω)} {d : Dict κ ν} {d' : Dict κ ω}
    (returned : d.filterMapM f = .ok d') (k : κ) (w : ω) :
    d'.get? k = some w ↔ ∃ v, d.get? k = some v ∧ f k v = .ok (some w) := by
  unfold filterMapM at returned
  split at returned
  · cases returned
  · rename_i ws done
    cases returned
    rw [← mem_entries_iff]
    simp only [List.mem_filterMap, Option.map_eq_some_iff, Prod.mk.injEq, Prod.exists]
    constructor
    · rintro ⟨k', o, member, w', rfl, rfl, rfl⟩
      obtain ⟨v, held, made⟩ := (mem_traverse done k' (some w')).mp member
      exact ⟨v, (mem_entries_iff d k' v).mp held, made⟩
    · rintro ⟨v, held, made⟩
      have member := (mem_traverse done k (some w)).mpr ⟨v, (mem_entries_iff d k v).mpr held, made⟩
      exact ⟨k, some w, member, w, rfl, rfl, rfl⟩

/-- `{**d, **d'}`. -/
def update (d d' : Dict κ ν) : Dict κ ν := d'.entries.foldl (fun d e => d.set e.1 e.2) d

theorem get?_update (d d' : Dict κ ν) (k : κ) : (d.update d').get? k = (d'.get? k).or (d.get? k) := by
  obtain ⟨es, nodup⟩ := d'
  show (es.foldl (fun d e => d.set e.1 e.2) d).get? k = (es.lookup k).or (d.get? k)
  induction es generalizing d with
  | nil => rfl
  | cons e rest ih =>
      rw [List.map_cons, List.nodup_cons] at nodup
      rw [List.foldl_cons, ih _ nodup.2, get?_set, lookup_cons_eq]
      by_cases same : k = e.1
      · subst same
        have absent := lookup_of_not_mem nodup.1
        simp [absent]
      · simp [same]

/-- `{k: v for k, v in d.items() if p(k, v)}`. -/
def filter (p : κ → ν → Bool) (d : Dict κ ν) : Dict κ ν :=
  ⟨d.entries.filter fun e => p e.1 e.2,
    d.keysNodup.sublist (List.filter_sublist.map Prod.fst)⟩

theorem get?_filter (p : κ → ν → Bool) (d : Dict κ ν) (k : κ) :
    (d.filter p).get? k = (d.get? k).filter (p k) := by
  rw [Option.ext_iff]
  intro v
  rw [← mem_entries_iff, Option.filter_eq_some_iff, ← mem_entries_iff]
  simp [filter]

/-- The same with a `p` that may raise: the first failure is the answer. -/
def filterM (p : κ → ν → Except ε Bool) (d : Dict κ ν) : Except ε (Dict κ ν) :=
  match traverse p d.entries with
  | .error err => .error err
  | .ok verdicts => .ok (d.filter fun k _ => decide (verdicts.lookup k = some true))

theorem filterM_of_ok {p : κ → ν → Except ε Bool} {q : κ → ν → Bool} {d : Dict κ ν}
    (verdicts : ∀ k v, d.get? k = some v → p k v = .ok (q k v)) :
    d.filterM p = .ok (d.filter q) := by
  have values : ∀ e ∈ d.entries, p e.1 e.2 = .ok (q e.1 e.2) := fun e member =>
    verdicts e.1 e.2 ((mem_entries_iff d e.1 e.2).mp member)
  have asked : traverse p d.entries = .ok (d.entries.map fun e => (e.1, q e.1 e.2)) := by
    simpa using traverse_map id values
  rw [filterM, asked]
  dsimp only
  congr 1
  simp only [filter, mk.injEq]
  refine List.filter_congr fun e member => ?_
  have found : (d.mapEntries q).get? e.1 = some (q e.1 e.2) := by
    rw [get?_mapEntries, (mem_entries_iff d e.1 e.2).mp member]
    rfl
  rw [get?, entries_mapEntries] at found
  rw [found]
  cases q e.1 e.2 <;> simp

end Rebuild

end Dict

end Cronwatch.Theory
