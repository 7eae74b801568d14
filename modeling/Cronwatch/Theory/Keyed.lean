/-
# Theory.Keyed -- components that keep one state per key

A call on such a component belongs to a key.  It answers by the state of its own key,
changes that state and no other (`Keyed.answer_eq`, `Keyed.view_eq`).

* `view_run`: the state of a key after a run is what its own calls make of it.
* `answer_own`: a call answers as it would if no call of another key had been made.
* `outputs_congr`: two runs with corresponding calls answer alike, when corresponding
  states do.  What corresponds may depend on a note of the calls of the key so far, and
  the calls have to correspond only where the guard holds.
-/
import Mathlib.Logic.Basic

namespace Cronwatch.Theory

set_option autoImplicit false

universe u v w x y z

/-- `own` is what a call answers and makes of the state of its key. -/
structure Keyed (τ : Type u) (ε : Type v) (α : Type w) (κ : Type x) (σ : Type y)
    [DecidableEq κ] where
  step : τ → ε → α × τ
  key : ε → κ
  view : τ → κ → σ
  own : σ → ε → α × σ
  answer_eq : ∀ t e, (step t e).1 = (own (view t (key e)) e).1
  view_eq : ∀ t e k, view (step t e).2 k = if k = key e then (own (view t k) e).2 else view t k

namespace Keyed

variable {τ : Type u} {ε : Type v} {α : Type w} {κ : Type x} {σ : Type y} [DecidableEq κ]
  (m : Keyed τ ε α κ σ)

def run (t : τ) (es : List ε) : τ := es.foldl (fun t e => (m.step t e).2) t

def ownRun (s : σ) (es : List ε) : σ := es.foldl (fun s e => (m.own s e).2) s

/-- The calls of a run with their answers, in order. -/
def log : τ → List ε → List (ε × α)
  | _, [] => []
  | t, e :: rest => (e, (m.step t e).1) :: log (m.step t e).2 rest

def outputs (t : τ) (es : List ε) : List α := (m.log t es).map Prod.snd

/-- The calls of one key. -/
def calls (k : κ) (es : List ε) : List ε := es.filter fun e => m.key e = k

@[simp] theorem run_nil (t : τ) : m.run t [] = t := rfl

@[simp] theorem run_cons (t : τ) (e : ε) (rest : List ε) :
    m.run t (e :: rest) = m.run (m.step t e).2 rest := rfl

theorem run_append (t : τ) (es es' : List ε) : m.run t (es ++ es') = m.run (m.run t es) es' :=
  List.foldl_append

theorem run_append_single (t : τ) (es : List ε) (e : ε) :
    m.run t (es ++ [e]) = (m.step (m.run t es) e).2 := by
  rw [run_append, run_cons, run_nil]

theorem ownRun_append_single (s : σ) (es : List ε) (e : ε) :
    m.ownRun s (es ++ [e]) = (m.own (m.ownRun s es) e).2 := by
  rw [ownRun, List.foldl_append]
  rfl

@[simp] theorem outputs_nil (t : τ) : m.outputs t [] = [] := rfl

@[simp] theorem outputs_cons (t : τ) (e : ε) (rest : List ε) :
    m.outputs t (e :: rest) = (m.step t e).1 :: m.outputs (m.step t e).2 rest := rfl

theorem log_append_single (t : τ) (es : List ε) (e : ε) :
    m.log t (es ++ [e]) = m.log t es ++ [(e, (m.step (m.run t es) e).1)] := by
  induction es generalizing t with
  | nil => rfl
  | cons first rest ih => rw [List.cons_append, log, log, ih, List.cons_append, run_cons]

/-- An answer of the run is the answer to some call of it. -/
theorem mem_outputs_iff (t : τ) (es : List ε) (a : α) :
    a ∈ m.outputs t es ↔
      ∃ before e after, es = before ++ e :: after ∧ (m.step (m.run t before) e).1 = a := by
  induction es generalizing t with
  | nil => simp
  | cons e rest ih =>
      rw [outputs_cons, List.mem_cons, ih]
      constructor
      · rintro (rfl | ⟨before, e', after, rfl, answer⟩)
        · exact ⟨[], e, rest, rfl, rfl⟩
        · exact ⟨e :: before, e', after, rfl, answer⟩
      · rintro ⟨before, e', after, split, answer⟩
        rcases before with _ | ⟨first, before⟩
        · cases split
          exact .inl answer.symm
        · cases split
          exact .inr ⟨before, e', after, rfl, answer⟩

@[simp] theorem calls_calls (k : κ) (es : List ε) : m.calls k (m.calls k es) = m.calls k es := by
  simp [calls, List.filter_filter]

/-- **The state of a key** after a run: other keys have no part in it. -/
theorem view_run (t : τ) (es : List ε) (k : κ) :
    m.view (m.run t es) k = m.ownRun (m.view t k) (m.calls k es) := by
  induction es generalizing t with
  | nil => rfl
  | cons e rest ih =>
      rw [run_cons, ih, m.view_eq, calls, calls, List.filter_cons]
      by_cases same : m.key e = k
      · rw [if_pos same.symm, if_pos (by simpa using same)]
        rfl
      · have other : ¬ k = m.key e := fun eq => same eq.symm
        rw [if_neg other, if_neg (by simpa using same)]

/-- **A call answers by the calls of its own key.** -/
theorem answer_own (t : τ) (before : List ε) (e : ε) :
    (m.step (m.run t before) e).1 = (m.step (m.run t (m.calls (m.key e) before)) e).1 := by
  rw [m.answer_eq, m.answer_eq, view_run, view_run, calls_calls]

/-! ## Corresponding runs -/

section Correspondence

variable {γ : Type z} {note : γ → ε → γ}

/-- Every call of the run meets the guard, which knows what the calls of its key so far
are noted as. -/
def Meets (note : γ → ε → γ) (ok : γ → ε → Prop) (start : κ → γ) (es : List ε) : Prop :=
  ∀ before e after, es = before ++ e :: after →
    ok ((m.calls (m.key e) before).foldl note (start (m.key e))) e

variable {m}

theorem Meets.head {ok : γ → ε → Prop} {start : κ → γ} {e : ε} {rest : List ε}
    (meets : m.Meets note ok start (e :: rest)) : ok (start (m.key e)) e :=
  meets [] e rest rfl

theorem Meets.tail {ok : γ → ε → Prop} {start : κ → γ} {e : ε} {rest : List ε}
    (meets : m.Meets note ok start (e :: rest)) :
    m.Meets note ok (fun k => if k = m.key e then note (start k) e else start k) rest := by
  rintro before e' after rfl
  have met := meets (e :: before) e' after rfl
  by_cases same : m.key e = m.key e'
  · simpa [calls, same] using met
  · have other : ¬ m.key e' = m.key e := fun eq => same eq.symm
    simpa [calls, same, other] using met

variable {R : γ → σ → σ → Prop} {ok : γ → ε → Prop} {f : ε → ε}

/-- **Two runs that correspond call by call** give the same answers. -/
theorem outputs_congr (keys : ∀ e, m.key (f e) = m.key e)
    (steps : ∀ g s s' e, R g s s' → ok g e →
      (m.own s' (f e)).1 = (m.own s e).1 ∧ R (note g e) (m.own s e).2 (m.own s' (f e)).2)
    {t t' : τ} {start : κ → γ} (related : ∀ k, R (start k) (m.view t k) (m.view t' k))
    {es : List ε} (meets : m.Meets note ok start es) :
    m.outputs t' (es.map f) = m.outputs t es := by
  induction es generalizing t t' start with
  | nil => rfl
  | cons e rest ih =>
      obtain ⟨answer, next⟩ := steps _ _ _ e (related (m.key e)) meets.head
      rw [List.map_cons, outputs_cons, outputs_cons, m.answer_eq, m.answer_eq, keys, answer]
      refine congrArg _ (ih (fun k => ?_) meets.tail)
      rw [m.view_eq, m.view_eq, keys]
      split
      · rename_i same
        subst same
        exact next
      · exact related k

end Correspondence

variable {m}

/-- Components with the same states answer alike. -/
theorem outputs_of_views {t t' : τ} (views : ∀ k, m.view t' k = m.view t k) (es : List ε) :
    m.outputs t' es = m.outputs t es := by
  have unguarded : m.Meets (fun (_ : Unit) _ => ()) (fun _ _ => True) (fun _ => ()) es :=
    fun _ _ _ _ => trivial
  have same : m.outputs t' (es.map id) = m.outputs t es :=
    outputs_congr (R := fun _ s s' => s' = s) (f := id) (fun _ => rfl)
      (fun _ s s' e eq _ => by rw [eq]; exact ⟨rfl, rfl⟩) views unguarded
  rwa [List.map_id] at same

end Keyed

end Cronwatch.Theory
