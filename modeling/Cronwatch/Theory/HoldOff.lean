/-
# Theory.HoldOff -- acts held off by the last act with the same key

A dictionary keeps one stamp per key, the time of its last act.  An attempt at `now`
is free when its key has no stamp or `passed` says that enough time is over since the
stamp; a free attempt acts and sets the stamp.

Calls that carry a time come in order of it (`ordered_front`, `exists_latest`).  What the
log of all acts and the stamps have to do with each other:

* `Stamped`: every stamp is the time of an act, and no act is in the future.  It
  survives the loss of stamps, and gives `Stamped.exists_act`: an attempt that is not
  free has an act behind it that still holds it off.
* `Spaced`: of one key's acts, each comes after `passed` from every earlier one.  It
  needs the key's stamp to be kept and the attempts to come in order of time.
* `Recorded`: the stamps are what a log of acts and releases says, in whatever order of time
  they come.  Two acts of one key with no release of it between them are apart
  (`Recorded.apart_of_kept`).
-/
import Cronwatch.Theory.Dict
import Cronwatch.Theory.Flag
import Cronwatch.Theory.Splits
import Mathlib.Order.Lattice

namespace Cronwatch.Theory.HoldOff

set_option autoImplicit false

universe u v w

variable {κ : Type u} {τ : Type v} [DecidableEq κ]

/-- The attempt is not held off. -/
def Free (passed : κ → τ → τ → Prop) (stamps : Dict κ τ) (k : κ) (now : τ) : Prop :=
  ∀ last, stamps.get? k = some last → passed k last now

/-- The times of the acts with this key, in order. -/
def times (k : κ) (log : List (κ × τ)) : List τ :=
  log.filterMap fun act => if act.1 = k then some act.2 else none

@[simp] theorem times_append_single (k : κ) (log : List (κ × τ)) (k' : κ) (t : τ) :
    times k (log ++ [(k', t)]) = times k log ++ if k' = k then [t] else [] := by
  by_cases same : k' = k <;> simp [times, same]

@[simp] theorem mem_times (k : κ) (log : List (κ × τ)) (t : τ) :
    t ∈ times k log ↔ (k, t) ∈ log := by
  simp [times]

/-- Of times that come after each other by `R`, at most one lies where no two do. -/
theorem length_le_one_of_pairwise {R : τ → τ → Prop} {ts : List τ} (apart : ts.Pairwise R)
    (near : ∀ t ∈ ts, ∀ t' ∈ ts, ¬ R t t') : ts.length ≤ 1 := by
  rcases ts with _ | ⟨t, _ | ⟨t', rest⟩⟩
  · exact Nat.zero_le 1
  · exact le_rfl
  · have first := List.rel_of_pairwise_cons apart List.mem_cons_self
    exact absurd first (near t List.mem_cons_self t' (by simp))

variable [Preorder τ]

/-! ## Calls in order of time -/

section Order

variable {α : Type w} {time? : α → Option τ}

/-- The calls in front of one of them are in order, and none of them is later. -/
theorem ordered_front {before after : List α} {e : α}
    (ordered : ((before ++ e :: after).filterMap time?).Pairwise (· ≤ ·)) :
    (before.filterMap time?).Pairwise (· ≤ ·) ∧
      ∀ now ∈ time? e, ∀ t ∈ before.filterMap time?, t ≤ now := by
  rw [List.filterMap_append] at ordered
  obtain ⟨front, -, cross⟩ := List.pairwise_append.mp ordered
  refine ⟨front, fun now timed t member => cross t member now ?_⟩
  rw [List.mem_filterMap]
  exact ⟨e, List.mem_cons_self, timed⟩

theorem exists_latest [Nonempty τ] {ts : List τ} (ordered : ts.Pairwise (· ≤ ·)) :
    ∃ last, ∀ t ∈ ts, t ≤ last := by
  rcases ts.eq_nil_or_concat' with rfl | ⟨front, last, rfl⟩
  · exact ⟨Classical.arbitrary τ, fun _ impossible => by cases impossible⟩
  · refine ⟨last, fun t member => ?_⟩
    obtain ⟨-, -, cross⟩ := List.pairwise_append.mp ordered
    rcases List.mem_append.mp member with inFront | this
    · exact cross t inFront last (List.mem_singleton_self last)
    · exact (List.mem_singleton.mp this).le

end Order

/-! ## Stamps that are acts of the past -/

/-- Every stamp is the time of an act, and no act is later than `now`. -/
structure Stamped (now : τ) (log : List (κ × τ)) (stamps : Dict κ τ) : Prop where
  stamp : ∀ k t, stamps.get? k = some t → (k, t) ∈ log
  past : ∀ act ∈ log, act.2 ≤ now

namespace Stamped

variable {now later : τ} {log : List (κ × τ)} {stamps : Dict κ τ}

theorem start (now : τ) : Stamped now [] (.empty : Dict κ τ) where
  stamp := fun _ _ impossible => by cases impossible
  past := by simp

theorem wait (stamped : Stamped now log stamps) (le : now ≤ later) : Stamped later log stamps where
  stamp := stamped.stamp
  past := fun act member => (stamped.past act member).trans le

theorem act (stamped : Stamped now log stamps) (k : κ) :
    Stamped now (log ++ [(k, now)]) (stamps.set k now) where
  stamp := by
    intro k' t held
    rw [Dict.get?_set] at held
    split at held
    · rename_i same
      cases held
      simp [same]
    · exact List.mem_append_left _ (stamped.stamp k' t held)
  past := by
    intro act member
    rcases List.mem_append.mp member with earlier | this
    · exact stamped.past act earlier
    · rw [List.mem_singleton.mp this]

theorem forget (stamped : Stamped now log stamps) (k : κ) : Stamped now log (stamps.erase k) where
  stamp := by
    intro k' t held
    rw [Dict.get?_erase] at held
    split at held
    · cases held
    · exact stamped.stamp k' t held
  past := stamped.past

/-- An attempt that is held off has an act behind it since which not enough time is
over. -/
theorem exists_act (stamped : Stamped now log stamps) {passed : κ → τ → τ → Prop} {k : κ}
    (held : ¬ Free passed stamps k now) : ∃ t, (k, t) ∈ log ∧ t ≤ now ∧ ¬ passed k t now := by
  unfold Free at held
  push Not at held
  obtain ⟨last, stamp, recent⟩ := held
  have acted := stamped.stamp k last stamp
  exact ⟨last, acted, stamped.past _ acted, recent⟩

end Stamped

/-! ## Acts apart from each other -/

/-- The acts with key `k` each come after `passed` from the earlier ones, and none of
them is later than the key's stamp, which is not later than `now`. -/
structure Spaced (passed : τ → τ → Prop) (k : κ) (now : τ) (log : List (κ × τ))
    (stamps : Dict κ τ) : Prop where
  apart : (times k log).Pairwise passed
  stamp : ∀ t ∈ times k log, ∃ last, stamps.get? k = some last ∧ t ≤ last
  past : ∀ last, stamps.get? k = some last → last ≤ now

namespace Spaced

variable {passed : τ → τ → Prop} {k k' : κ} {now later : τ} {log : List (κ × τ)}
  {stamps : Dict κ τ}

theorem start (passed : τ → τ → Prop) (k : κ) (now : τ) :
    Spaced passed k now [] (.empty : Dict κ τ) where
  apart := List.Pairwise.nil
  stamp := by simp
  past := fun _ impossible => by cases impossible

theorem wait (spaced : Spaced passed k now log stamps) (le : now ≤ later) :
    Spaced passed k later log stamps where
  apart := spaced.apart
  stamp := spaced.stamp
  past := fun last stamp => (spaced.past last stamp).trans le

/-- An act at the current time, not held off. -/
theorem act (spaced : Spaced passed k now log stamps)
    (longer : ∀ t last, t ≤ last → passed last now → passed t now)
    (free : ∀ last, stamps.get? k = some last → passed last now) :
    Spaced passed k now (log ++ [(k, now)]) (stamps.set k now) where
  apart := by
    rw [times_append_single, if_pos rfl]
    refine List.pairwise_append.mpr ⟨spaced.apart, List.pairwise_singleton _ _, ?_⟩
    intro t earlier t' same
    rw [List.mem_singleton.mp same]
    obtain ⟨last, stamp, le⟩ := spaced.stamp t earlier
    exact longer t last le (free last stamp)
  stamp := by
    intro t acted
    rw [times_append_single, if_pos rfl, List.mem_append] at acted
    refine ⟨now, Dict.get?_set_self stamps k now, ?_⟩
    rcases acted with earlier | this
    · obtain ⟨last, stamp, le⟩ := spaced.stamp t earlier
      exact le.trans (spaced.past last stamp)
    · exact (List.mem_singleton.mp this).le
  past := by
    intro last stamp
    rw [Dict.get?_set_self] at stamp
    cases stamp
    exact le_rfl

/-- An act with another key. -/
theorem act_of_ne (spaced : Spaced passed k now log stamps) (ne : k' ≠ k) (t : τ) :
    Spaced passed k now (log ++ [(k', t)]) (stamps.set k' t) where
  apart := by
    rw [times_append_single, if_neg ne, List.append_nil]
    exact spaced.apart
  stamp := by
    rw [times_append_single, if_neg ne, List.append_nil, Dict.get?_set_of_ne _ _ ne.symm]
    exact spaced.stamp
  past := by
    rw [Dict.get?_set_of_ne _ _ ne.symm]
    exact spaced.past

/-- The stamp of another key is lost. -/
theorem forget_of_ne (spaced : Spaced passed k now log stamps) (ne : k' ≠ k) :
    Spaced passed k now log (stamps.erase k') where
  apart := spaced.apart
  stamp := by
    rw [Dict.get?_erase, if_neg ne.symm]
    exact spaced.stamp
  past := by
    rw [Dict.get?_erase, if_neg ne.symm]
    exact spaced.past

end Spaced

/-! ## Acts, and keys that are released -/

inductive Entry (κ : Type u) (τ : Type v) where
  | act (k : κ) (t : τ)
  | release (k : κ)

section Releases

omit [Preorder τ]

def Entry.time? (k : κ) : Entry κ τ → Option τ
  | .act k' t => if k' = k then some t else none
  | .release _ => none

def Entry.releases (k : κ) : Entry κ τ → Bool
  | .act _ _ => false
  | .release k' => k' = k

/-- The time of the last act of the key that has not been released since. -/
def lastAct (k : κ) (log : List (Entry κ τ)) : Option τ :=
  inForce (Entry.time? k) (fun _ e => e.releases k) log

theorem lastAct_act (k : κ) (log : List (Entry κ τ)) (k' : κ) (t : τ) :
    lastAct k (log ++ [.act k' t]) = if k = k' then some t else lastAct k log := by
  rw [lastAct, inForce_append_single, ← lastAct, Entry.time?]
  by_cases same : k' = k
  · simp [same]
  · cases lastAct k log <;> simp [same, Ne.symm same, Entry.releases]

theorem lastAct_release (k : κ) (log : List (Entry κ τ)) (k' : κ) :
    lastAct k (log ++ [.release k']) = if k = k' then none else lastAct k log := by
  rw [lastAct, inForce_append_single, ← lastAct, Entry.time?, Option.none_or]
  by_cases same : k' = k
  · cases lastAct k log <;> simp [same, Entry.releases]
  · cases lastAct k log <;> simp [same, Ne.symm same, Entry.releases]

theorem exists_of_lastAct {k : κ} {log : List (Entry κ τ)} {t : τ} (held : lastAct k log = some t) :
    ∃ before after, log = before ++ .act k t :: after ∧ .release k ∉ after := by
  obtain ⟨before, e, after, rfl, acts, kept⟩ := (inForce_eq_some_iff _ _).mp held
  cases e with
  | release k' => cases acts
  | act k' t' =>
      rw [Entry.time?] at acts
      split at acts
      · rename_i same
        cases acts
        subst same
        refine ⟨before, after, rfl, fun member => ?_⟩
        have released := (kept _ member).2
        simp [Entry.releases] at released
      · cases acts

/-- There is such an act exactly when the key has acted and has not been released since. -/
theorem lastAct_isSome_iff (k : κ) (log : List (Entry κ τ)) :
    (lastAct k log).isSome = true ↔ ∃ before t after,
      log = before ++ .act k t :: after ∧ .release k ∉ after := by
  have up : (lastAct k log).isSome = flag (fun e => (e.time? k).isSome) (Entry.releases k) log := by
    induction log using List.reverseRecOn with
    | nil => rfl
    | append_singleton front e ih =>
        rw [flag_append_single, flagAfter, ← ih]
        cases e with
        | act k' t =>
            rw [lastAct_act]
            by_cases same : k' = k
            · simp [same, Entry.time?]
            · simp [Entry.time?, Entry.releases, same, Ne.symm same]
        | release k' =>
            rw [lastAct_release]
            by_cases same : k' = k
            · simp [same, Entry.time?, Entry.releases]
            · simp [Entry.time?, Entry.releases, same, Ne.symm same]
  rw [up, flag_iff]
  constructor
  · rintro ⟨before, e, after, rfl, acts, kept⟩
    cases e with
    | release k' => cases acts
    | act k' t =>
        have same : k' = k := by
          by_contra other
          simp [Entry.time?, other] at acts
        subst same
        refine ⟨before, t, after, rfl, fun member => ?_⟩
        have released := kept _ member
        simp [Entry.releases] at released
  · rintro ⟨before, t, after, rfl, kept⟩
    refine ⟨before, _, after, rfl, by simp [Entry.time?], fun e member => ?_⟩
    cases e with
    | act k' t' => rfl
    | release k' =>
        have other : k' ≠ k := by
          rintro rfl
          exact kept member
        simp [Entry.releases, other]

/-- The stamps are what the log says, and no act was held off when it came. -/
structure Recorded (passed : κ → τ → τ → Prop) (log : List (Entry κ τ)) (stamps : Dict κ τ) : Prop where
  stamp : ∀ k, stamps.get? k = lastAct k log
  free : ∀ before e after, log = before ++ e :: after →
    ∀ k t, e = .act k t → ∀ last, lastAct k before = some last → passed k last t

namespace Recorded

variable {passed : κ → τ → τ → Prop} {log : List (Entry κ τ)} {stamps : Dict κ τ}

theorem start (passed : κ → τ → τ → Prop) : Recorded passed [] (.empty : Dict κ τ) where
  stamp := fun _ => rfl
  free := forall_splits_nil

theorem act (recorded : Recorded passed log stamps) {k : κ} {now : τ} (free : Free passed stamps k now) :
    Recorded passed (log ++ [.act k now]) (stamps.set k now) where
  stamp := by
    intro k'
    rw [Dict.get?_set, lastAct_act, recorded.stamp]
  free := by
    refine (forall_splits_append_single _ _).mpr ⟨recorded.free, ?_⟩
    rintro _ _ ⟨⟩ last held
    exact free last ((recorded.stamp k).trans held)

theorem release (recorded : Recorded passed log stamps) (k : κ) :
    Recorded passed (log ++ [.release k]) (stamps.erase k) where
  stamp := by
    intro k'
    rw [Dict.get?_erase, lastAct_release, recorded.stamp]
  free := by
    refine (forall_splits_append_single _ _).mpr ⟨recorded.free, ?_⟩
    rintro _ _ ⟨⟩

/-- Behind an act of a key, its last act is that one or comes after `passed` from it, for as long
as the key is not released. -/
theorem lastAct_of_kept (recorded : Recorded passed log stamps)
    (longer : ∀ k t t' t'', passed k t t' → passed k t' t'' → passed k t t'')
    {before between after : List (Entry κ τ)} {k : κ} {t : τ}
    (split : log = before ++ .act k t :: (between ++ after)) (kept : .release k ∉ between) :
    ∃ last, lastAct k (before ++ .act k t :: between) = some last ∧ (last = t ∨ passed k t last) := by
  induction between using List.reverseRecOn generalizing after with
  | nil => exact ⟨t, by rw [lastAct_act, if_pos rfl], .inl rfl⟩
  | append_singleton front e ih =>
      rw [List.append_assoc, List.singleton_append] at split
      obtain ⟨last, held, apart⟩ := ih split fun member => kept (List.mem_append_left _ member)
      have regrouped : before ++ .act k t :: (front ++ [e]) = (before ++ .act k t :: front) ++ [e] := by
        rw [List.append_assoc, List.cons_append]
      rw [regrouped]
      cases e with
      | act k' t' =>
          rw [lastAct_act]
          by_cases same : k = k'
          · subst same
            rw [← List.cons_append, ← List.append_assoc] at split
            have next := recorded.free _ _ _ split k t' rfl last held
            refine ⟨t', if_pos rfl, .inr ?_⟩
            rcases apart with rfl | further
            · exact next
            · exact longer k _ _ _ further next
          · rw [if_neg same]
            exact ⟨last, held, apart⟩
      | release k' =>
          have other : k ≠ k' := fun same => kept (by simp [same])
          rw [lastAct_release, if_neg other]
          exact ⟨last, held, apart⟩

/-- **Two acts of one key with no release between them** are apart. -/
theorem apart_of_kept (recorded : Recorded passed log stamps)
    (longer : ∀ k t t' t'', passed k t t' → passed k t' t'' → passed k t t'')
    {before between after : List (Entry κ τ)} {k : κ} {t t' : τ}
    (split : log = before ++ .act k t :: (between ++ .act k t' :: after)) (kept : .release k ∉ between) :
    passed k t t' := by
  obtain ⟨last, held, apart⟩ := recorded.lastAct_of_kept longer split kept
  rw [← List.cons_append, ← List.append_assoc] at split
  have next := recorded.free _ _ _ split k t' rfl last held
  rcases apart with rfl | further
  · exact next
  · exact longer k _ _ _ further next

end Recorded

end Releases

end Cronwatch.Theory.HoldOff
