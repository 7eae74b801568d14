/-
# Jobs.Tracing -- the trace of a run, and the store of recent traces

A `TraceContext` collects the spans of one run.  `TraceStore` keeps the contexts in a map by
trace id, and the ids once more in a list by which the oldest ones go.  A bound below zero
makes the list run out (`evict`), which is an `IndexError`.

The two are kept in step by hand.  `Holds` says that the store is a bounded map, and
`record_holds` that a record is one write to it; `store_boundedFifo` says what that means
for the calls of the store.
-/
import Cronwatch.Runtime.Python
import Cronwatch.Theory.BoundedMap

namespace Cronwatch.Jobs

set_option autoImplicit false

open Cronwatch.Theory Cronwatch.Runtime

structure TraceSpan where
  name : String
  startedAt : DateTime
  endedAt : Option DateTime := none
  metadata : Dict String String := .empty
deriving DecidableEq

/-- `finish(**meta)`, at a clock reading. -/
def TraceSpan.finish (now : DateTime) (details : List (String × String)) (span : TraceSpan) :
    TraceSpan :=
  { span with
    endedAt := some now
    metadata := details.foldl (fun metadata e => metadata.set e.1 e.2) span.metadata }

structure TraceContext where
  jobName : String
  traceId : String
  startedAt : DateTime
  spans : List TraceSpan := []
deriving DecidableEq

structure IndexError where
  message : String
deriving DecidableEq

structure TraceStore where
  max : Int := 200
  traces : Dict String TraceContext := .empty
  order : List String := []

namespace TraceStore

/-- The loop that pops the oldest id while there are too many. -/
def evict (max : Int) : List String → Dict String TraceContext →
    Except IndexError Unit × List String × Dict String TraceContext
  | [], traces =>
      if max < 0 then (.error ⟨"pop from empty list"⟩, [], traces) else (.ok (), [], traces)
  | oldest :: rest, traces =>
      if max < (oldest :: rest).length then evict max rest (traces.erase oldest)
      else (.ok (), oldest :: rest, traces)

def record (ctx : TraceContext) (store : TraceStore) : Except IndexError Unit × TraceStore :=
  let order :=
    if ctx.traceId ∈ store.traces.keys then store.order else store.order ++ [ctx.traceId]
  let (answer, order, traces) := evict store.max order (store.traces.set ctx.traceId ctx)
  (answer, { store with order, traces })

def get (traceId : String) (store : TraceStore) : Option TraceContext := store.traces.get? traceId

/-- The contexts of the map, in its order. -/
def forJob (jobName : String) (store : TraceStore) : List TraceContext :=
  (store.traces.entries.map Prod.snd).filter fun t => t.jobName = jobName

/-- The contexts of the listed ids that are in the map. -/
def all (store : TraceStore) : List TraceContext := store.order.filterMap store.traces.get?

/-- A store with this bound, after these calls of `record`. -/
def after (max : Int) (calls : List TraceContext) : TraceStore :=
  calls.foldl (fun store ctx => (store.record ctx).2) { max }

/-! ## The store is a bounded map -/

theorem entries_erase_head {d : Dict String TraceContext} {e : String × TraceContext}
    {rest : List (String × TraceContext)} (entries : d.entries = e :: rest) :
    (d.erase e.1).entries = rest := by
  have nodup := d.keysNodup
  rw [entries, List.map_cons, List.nodup_cons] at nodup
  show d.entries.filter (fun e' => e'.1 ≠ e.1) = rest
  rw [entries, List.filter_cons_of_neg (by simp)]
  refine List.filter_eq_self.mpr fun e' member => ?_
  rw [decide_eq_true_eq]
  exact fun same => nodup.1 (same ▸ List.mem_map_of_mem member)

/-- **The loop** leaves the newest entries, in the list and in the map. -/
theorem evict_eq (bound : Nat) (d : Dict String TraceContext) :
    evict bound d.keys d = (.ok (), (d.newest bound).keys, d.newest bound) := by
  generalize at_ : d.entries = entries
  induction entries generalizing d with
  | nil =>
      have all : d.newest bound = d := Dict.newest_of_length_le (by simp [at_])
      rw [all, Dict.keys, at_, List.map_nil, evict, if_neg (by omega)]
  | cons e rest ih =>
      have keys : d.keys = e.1 :: (d.erase e.1).keys := by
        rw [Dict.keys, at_, List.map_cons, Dict.keys, entries_erase_head at_]
      have length : d.entries.length = (d.erase e.1).entries.length + 1 := by
        rw [at_, entries_erase_head at_, List.length_cons]
      have keysLength : (d.erase e.1).keys.length = (d.erase e.1).entries.length :=
        List.length_map _
      rw [keys, evict, List.length_cons, keysLength]
      split
      · rename_i tooMany
        have same : (d.erase e.1).newest bound = d.newest bound := by
          refine Dict.eq_of_entries ?_
          show (d.erase e.1).entries.drop ((d.erase e.1).entries.length - bound) =
            d.entries.drop (d.entries.length - bound)
          have more : d.entries.length - bound = ((d.erase e.1).entries.length - bound) + 1 := by
            omega
          rw [more, at_, List.drop_succ_cons, entries_erase_head at_]
        rw [ih (d.erase e.1) (entries_erase_head at_), same]
      · rename_i few
        have all : d.newest bound = d := Dict.newest_of_length_le (by omega)
        rw [all, keys]

/-- The store is the map, with that bound. -/
structure Holds (bound : Nat) (d : Dict String TraceContext) (store : TraceStore) : Prop where
  max : store.max = bound
  traces : store.traces = d
  order : store.order = d.keys

/-- **A record** is one write to the map, and returns. -/
theorem record_holds {bound : Nat} {d : Dict String TraceContext} {store : TraceStore}
    (holds : Holds bound d store) (ctx : TraceContext) :
    (store.record ctx).1 = .ok () ∧
      Holds bound (BoundedMap.record bound d ctx.traceId ctx) (store.record ctx).2 := by
  obtain ⟨max, traces, order⟩ := store
  obtain ⟨isBound, isMap, isKeys⟩ := holds
  dsimp only at isBound isMap isKeys
  subst isBound isMap isKeys
  have ids : (if ctx.traceId ∈ traces.keys then traces.keys else traces.keys ++ [ctx.traceId]) =
      (traces.set ctx.traceId ctx).keys := by
    split
    · rename_i held
      exact (Dict.keys_assign_of_mem ctx held).symm
    · rename_i new
      show _ = (Dict.assign ctx.traceId ctx traces.entries).map Prod.fst
      rw [Dict.assign_of_not_mem ctx new, List.map_append]
      rfl
  have evicted := evict_eq bound (traces.set ctx.traceId ctx)
  simp only [record, ids, evicted]
  exact ⟨trivial, rfl, rfl, rfl⟩

theorem after_append_single (max : Int) (calls : List TraceContext) (ctx : TraceContext) :
    after max (calls ++ [ctx]) = ((after max calls).record ctx).2 :=
  List.foldl_concat ..

theorem after_holds (bound : Nat) (calls : List TraceContext) :
    Holds bound (BoundedMap.recorded bound (calls.map fun ctx => (ctx.traceId, ctx)))
      (after bound calls) := by
  induction calls using List.reverseRecOn with
  | nil => exact ⟨rfl, rfl, rfl⟩
  | append_singleton calls ctx ih =>
      rw [after_append_single, List.map_append, List.map_singleton,
        BoundedMap.recorded_append_single]
      exact (record_holds ih ctx).2

/-- The contexts of the ids in order are those of the map in order. -/
theorem all_of_keys {store : TraceStore} (order : store.order = store.traces.keys) :
    store.all = store.traces.entries.map Prod.snd := by
  rw [all, order, Dict.keys, List.filterMap_map]
  have found : ∀ e ∈ store.traces.entries,
      (store.traces.get? ∘ Prod.fst) e = some e.2 := fun e member =>
    (store.traces.mem_entries_iff e.1 e.2).mp member
  rw [List.filterMap_congr found]
  exact List.filterMap_eq_map ▸ rfl

/-! ## What is held, whatever the bound -/

/-- What the loop leaves: the end of the list, no longer than the bound, and only contexts
that were held. -/
theorem evict_spec (max : Int) (order : List String) (traces : Dict String TraceContext) :
    (evict max order traces).2.1 <:+ order ∧ (evict max order traces).2.1.length ≤ max.toNat ∧
      ∀ traceId ctx, (evict max order traces).2.2.get? traceId = some ctx →
        traces.get? traceId = some ctx := by
  induction order generalizing traces with
  | nil =>
      rw [evict]
      split
      · exact ⟨List.suffix_rfl, Nat.zero_le _, fun _ _ held => held⟩
      · exact ⟨List.suffix_rfl, Nat.zero_le _, fun _ _ held => held⟩
  | cons oldest rest ih =>
      rw [evict]
      split
      · obtain ⟨suffix_, few, kept⟩ := ih (traces.erase oldest)
        refine ⟨suffix_.trans (List.suffix_cons oldest rest), few, fun traceId ctx held => ?_⟩
        have before := kept traceId ctx held
        rw [Dict.get?_erase] at before
        split at before
        · cases before
        · exact before
      · refine ⟨List.suffix_rfl, ?_, fun _ _ held => held⟩
        show (oldest :: rest).length ≤ max.toNat
        omega

theorem traceId_of_get? {max : Int} {calls : List TraceContext} {traceId : String}
    {ctx : TraceContext} (held : (after max calls).traces.get? traceId = some ctx) :
    ctx.traceId = traceId := by
  induction calls using List.reverseRecOn with
  | nil => cases held
  | append_singleton calls new ih =>
      rw [after_append_single] at held
      have written := (evict_spec _ _ _).2.2 _ _ held
      rw [Dict.get?_set] at written
      split at written
      · rename_i same
        cases written
        exact same.symm
      · exact ih written

theorem max_after (max : Int) (calls : List TraceContext) : (after max calls).max = max := by
  induction calls using List.reverseRecOn with
  | nil => rfl
  | append_singleton calls ctx ih =>
      rw [after_append_single]
      exact ih

/-- Only ids that were recorded are listed. -/
theorem recorded_of_mem_order {max : Int} {calls : List TraceContext} {traceId : String}
    (listed : traceId ∈ (after max calls).order) : traceId ∈ calls.map TraceContext.traceId := by
  induction calls using List.reverseRecOn with
  | nil => cases listed
  | append_singleton calls ctx ih =>
      rw [after_append_single] at listed
      have before := (evict_spec _ _ _).1.subset listed
      rw [List.map_append, List.mem_append]
      split at before
      · exact .inl (ih before)
      · rcases List.mem_append.mp before with earlier | here
        · exact .inl (ih earlier)
        · exact .inr here

theorem length_order_le (max : Int) (calls : List TraceContext) :
    (after max calls).order.length ≤ max.toNat := by
  induction calls using List.reverseRecOn with
  | nil => exact Nat.zero_le _
  | append_singleton calls ctx _ =>
      rw [after_append_single]
      have few : ((after max calls).record ctx).2.order.length ≤ (after max calls).max.toNat :=
        (evict_spec _ _ _).2.1
      rw [max_after] at few
      exact few

/-- A context of the store is listed by its own id, under which it is found. -/
theorem get_of_mem_all {max : Int} {calls : List TraceContext} {ctx : TraceContext}
    (member : ctx ∈ (after max calls).all) :
    ctx.traceId ∈ (after max calls).order ∧ (after max calls).get ctx.traceId = some ctx := by
  obtain ⟨traceId, listed, held⟩ := List.mem_filterMap.mp member
  obtain rfl := traceId_of_get? held
  exact ⟨listed, held⟩

/-- The contexts of the store are listed in their order. -/
theorem map_traceId_all (bound : Nat) (calls : List TraceContext) :
    (after bound calls).all.map TraceContext.traceId = (after bound calls).order := by
  have holds := after_holds bound calls
  have ids : (after bound calls).order = (after bound calls).traces.keys := by
    rw [holds.order, holds.traces]
  rw [all_of_keys ids, ids, Dict.keys, List.map_map]
  refine List.map_congr_left fun e member => ?_
  exact traceId_of_get? (((after bound calls).traces.mem_entries_iff e.1 e.2).mp member)

/-- **A new id** that is recorded where there is a place is held, with its context. -/
theorem holds_new {max : Int} (place : 1 ≤ max) {calls : List TraceContext} {ctx : TraceContext}
    (new : ctx.traceId ∉ calls.map TraceContext.traceId) :
    ((after max calls).record ctx).1 = .ok () ∧
      (after max (calls ++ [ctx])).all.countP (fun t => t.traceId = ctx.traceId) = 1 ∧
        (after max (calls ++ [ctx])).get ctx.traceId = some ctx := by
  obtain ⟨bound, rfl⟩ := Int.eq_ofNat_of_zero_le (le_trans Int.one_nonneg place)
  have before := after_holds bound calls
  have absent : ctx.traceId ∉
      (BoundedMap.recorded bound (calls.map fun ctx => (ctx.traceId, ctx))).keys := by
    rw [← before.order]
    exact fun listed => new (recorded_of_mem_order listed)
  obtain ⟨returned, holds⟩ := record_holds before ctx
  have listed : ctx.traceId ∈ (BoundedMap.record bound
      (BoundedMap.recorded bound (calls.map fun ctx => (ctx.traceId, ctx))) ctx.traceId ctx).keys := by
    rw [BoundedMap.keys_record_of_not_mem bound absent, List.rtake, List.length_append,
      List.drop_append_of_le_length (by simp; omega)]
    exact List.mem_append_right _ List.mem_cons_self
  refine ⟨returned, ?_, ?_⟩
  · have once : (after bound (calls ++ [ctx])).order.count ctx.traceId = 1 := by
      rw [after_append_single, holds.order]
      exact List.count_eq_one_of_mem (Dict.nodup_keys _) listed
    rw [← map_traceId_all, List.count, List.countP_map] at once
    exact once
  · rw [after_append_single, TraceStore.get, holds.traces, BoundedMap.get?_record listed, if_pos rfl]

/-! ## The calls of the store -/

/-- The last context that was recorded with the id. -/
def latest (calls : List TraceContext) (traceId : String) : Option TraceContext :=
  lastWith (fun ctx => ctx.traceId = traceId) calls

/-- A first-in-first-out map with a bound: what the store is after some calls, and what the
next call does. -/
structure BoundedFifo (bound : Int) (calls : List TraceContext) (store : TraceStore) : Prop where
  ids : store.order = store.traces.keys
  nodup : store.order.Nodup
  bounded : (store.order.length : Int) ≤ bound
  get : ∀ traceId, store.get traceId = if traceId ∈ store.order then latest calls traceId else none
  forJob : ∀ name, store.forJob name = store.all.filter fun ctx => ctx.jobName = name
  returns : ∀ ctx, (store.record ctx).1 = .ok ()
  held : ∀ ctx, ctx.traceId ∈ store.order → (store.record ctx).2.order = store.order ∧
    ∀ traceId, (store.record ctx).2.get traceId =
      if traceId = ctx.traceId then some ctx else store.get traceId
  new : ∀ ctx, ctx.traceId ∉ store.order →
    (store.record ctx).2.order =
      (store.order ++ [ctx.traceId]).drop (store.order.length + 1 - bound.toNat)

/-- **The store is a bounded first-in-first-out map**, after any calls of `record`. -/
theorem store_boundedFifo {max : Int} (nonneg : 0 ≤ max) (calls : List TraceContext) :
    BoundedFifo max calls (after max calls) := by
  obtain ⟨bound, rfl⟩ := Int.eq_ofNat_of_zero_le nonneg
  have holds := after_holds bound calls
  have short := BoundedMap.length_recorded bound (calls.map fun ctx => (ctx.traceId, ctx))
  have found := BoundedMap.get?_recorded bound (calls.map fun ctx => (ctx.traceId, ctx))
  generalize BoundedMap.recorded bound (calls.map fun ctx => (ctx.traceId, ctx)) = d
    at holds short found
  generalize after bound calls = store at holds
  have ids : store.order = store.traces.keys := by rw [holds.order, holds.traces]
  refine ⟨ids, ?_, ?_, ?_, ?_, fun ctx => (record_holds holds ctx).1, ?_, ?_⟩
  · rw [ids]
    exact store.traces.nodup_keys
  · rw [holds.order]
    exact Int.ofNat_le.mpr short
  · intro traceId
    rw [TraceStore.get, holds.traces, holds.order, found traceId, lastWith_map, Option.map_map]
    have same : (Prod.snd ∘ fun ctx : TraceContext => (ctx.traceId, ctx)) = id := rfl
    rw [same, Option.map_id]
    rfl
  · intro name
    rw [all_of_keys ids]
    rfl
  · intro ctx held
    have next := (record_holds holds ctx).2
    rw [holds.order] at held ⊢
    obtain ⟨set, keys⟩ := BoundedMap.record_of_mem short held ctx
    refine ⟨by rw [next.order, set, keys], fun traceId => ?_⟩
    rw [TraceStore.get, TraceStore.get, next.traces, holds.traces, set, Dict.get?_set]
  · intro ctx new
    rw [holds.order] at new ⊢
    rw [(record_holds holds ctx).2.order, BoundedMap.keys_record_of_not_mem bound new, List.rtake,
      List.length_append]
    rfl

/-- A context of a run that has no spans yet. -/
def traced (jobName traceId : String) : TraceContext where
  jobName := jobName
  traceId := traceId
  startedAt := 0

/-- Two places; the second id is recorded again, and then two new ones. -/
theorem boundedFifo_two :
    let calls := [traced "a" "1", traced "b" "2", traced "c" "2", traced "a" "3", traced "c" "4"]
    BoundedFifo 2 calls (after 2 calls) ∧ (after 2 (calls.take 4)).order = ["2", "3"] ∧
      (after 2 calls).order = ["3", "4"] :=
  ⟨store_boundedFifo (by decide) _, by decide, by decide⟩

end TraceStore

end Cronwatch.Jobs
