/-
# Runtime.Python -- exceptions and clock readings

What the modelled functions can raise, and the unit of every `datetime`.  A
`datetime` is its number of microseconds on the UTC time line, so differences are
exact and `total_seconds() < n` is a comparison with `seconds n`.
-/

namespace Cronwatch.Runtime

set_option autoImplicit false

/-- An exception that leaves a call.  `foreign` is raised by code handed in from
outside the repository (a callback, a runner, a third-party parser). -/
inductive PyException where
  | typeError (message : String)
  | valueError (message : String)
  | overflowError (message : String)
  | attributeError (message : String)
  | recursionError
  | dependencyCycleError (message : String)
  | lockAcquisitionError (message : String)
  | foreign (message : String)
deriving DecidableEq, Repr

/-- Microseconds on the UTC time line. -/
abbrev DateTime := Int

/-- A length of `n` seconds in microseconds. -/
def seconds (n : Int) : Int := n * 1000000

universe u v

/-- A block that returns has returned from its first statement. -/
theorem returned_of_bind {α : Type u} {β : Type u} {ε : Type v} {first : Except ε α}
    {rest : α → Except ε β} {b : β} (returned : (first >>= rest) = .ok b) :
    ∃ a, first = .ok a ∧ rest a = .ok b := by
  cases first with
  | error e => cases returned
  | ok a => exact ⟨a, rfl, returned⟩

theorem bind_returns_iff {α : Type u} {β : Type u} {ε : Type v} {first : Except ε α}
    {rest : α → Except ε β} :
    (∃ b, (first >>= rest) = .ok b) ↔ ∃ a, first = .ok a ∧ ∃ b, rest a = .ok b := by
  constructor
  · rintro ⟨b, returned⟩
    obtain ⟨a, first_, later⟩ := returned_of_bind returned
    exact ⟨a, first_, b, later⟩
  · rintro ⟨a, first_, b, later⟩
    rw [first_]
    exact ⟨b, later⟩

/-- A comprehension returns exactly when it does at each of its items. -/
theorem mapM_returns_iff {α : Type u} {β : Type u} {ε : Type v} (f : α → Except ε β) (l : List α) :
    (∃ bs, l.mapM f = .ok bs) ↔ ∀ a ∈ l, ∃ b, f a = .ok b := by
  induction l with
  | nil => simp [List.mapM_nil, pure, Except.pure]
  | cons a rest ih =>
      rw [List.mapM_cons, List.forall_mem_cons, ← ih, bind_returns_iff]
      constructor
      · rintro ⟨b, first, more⟩
        obtain ⟨bs, others, -⟩ := bind_returns_iff.mp more
        exact ⟨⟨b, first⟩, bs, others⟩
      · rintro ⟨⟨b, first⟩, bs, others⟩
        exact ⟨b, first, bind_returns_iff.mpr ⟨bs, others, b :: bs, rfl⟩⟩

/-- Where every call returns or raises the one exception, and some call raises, the list does. -/
theorem mapM_raises {α : Type u} {β : Type u} {ε : Type v} {f : α → Except ε β} {e : ε} {l : List α}
    (each : ∀ a ∈ l, (∃ b, f a = .ok b) ∨ f a = .error e) (some_ : ∃ a ∈ l, f a = .error e) :
    l.mapM f = .error e := by
  induction l with
  | nil => simp at some_
  | cons a rest ih =>
      rw [List.forall_mem_cons] at each
      rw [List.mapM_cons]
      rcases each.1 with ⟨b, returned⟩ | raised
      · have later : ∃ a ∈ rest, f a = .error e := by
          obtain ⟨a', member, raised⟩ := some_
          rcases List.mem_cons.mp member with rfl | behind
          · rw [returned] at raised
            cases raised
          · exact ⟨a', behind, raised⟩
        rw [returned, ih each.2 later]
        rfl
      · rw [raised]
        rfl

/-- What a comprehension has made, it has made of some item. -/
theorem of_mem_mapM {α : Type u} {β : Type u} {ε : Type v} {f : α → Except ε β} {l : List α}
    {bs : List β} (returned : l.mapM f = .ok bs) {b : β} (member : b ∈ bs) :
    ∃ a ∈ l, f a = .ok b := by
  induction l generalizing bs with
  | nil =>
      cases returned
      cases member
  | cons a rest ih =>
      rw [List.mapM_cons] at returned
      obtain ⟨b', first, more⟩ := returned_of_bind returned
      obtain ⟨others, later, made⟩ := returned_of_bind more
      cases made
      rcases List.mem_cons.mp member with rfl | behind
      · exact ⟨a, List.mem_cons_self, first⟩
      · obtain ⟨a', among, made⟩ := ih later behind
        exact ⟨a', List.mem_cons_of_mem a among, made⟩

end Cronwatch.Runtime
