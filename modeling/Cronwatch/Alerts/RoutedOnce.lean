/-
# Alerts.RoutedOnce -- how often an alerter gets one alert

Every matching rule contributes its channel, so a channel that two matching rules name is
there twice, and its alerter is called twice with one result.

`send_once_iff`: with one alerter for each channel, a result is delivered once to every
alerter it is routed to, and to no other, exactly when no channel comes twice among those
the matching rules name, as far as the loop gets.  It ends early where an alerter raises;
what comes after has to be named before.
-/
import Cronwatch.Alerts.Routing
import Mathlib.Data.List.Nodup

namespace Cronwatch.Alerts

set_option autoImplicit false

open Cronwatch.Theory Cronwatch.Runtime Cronwatch.Jobs

universe u v

/-- The items of a loop that an exception leaves: up to the first that raises, with it. -/
def untilRaise {β : Type u} (raises : β → Bool) : List β → List β
  | [] => []
  | b :: rest => if raises b then [b] else b :: untilRaise raises rest

section UntilRaise

variable {β : Type u} {γ : Type v}

theorem untilRaise_isPrefix (raises : β → Bool) (l : List β) : untilRaise raises l <+: l := by
  induction l with
  | nil => exact List.prefix_rfl
  | cons b rest ih =>
      rw [untilRaise]
      split
      · exact ⟨rest, rfl⟩
      · exact List.cons_prefix_cons.mpr ⟨rfl, ih⟩

theorem untilRaise_of_returns {raises : β → Bool} {l : List β}
    (returns : ∀ b ∈ l, raises b = false) : untilRaise raises l = l := by
  induction l with
  | nil => rfl
  | cons b rest ih =>
      rw [untilRaise, if_neg (by simp [returns b List.mem_cons_self]),
        ih fun later member => returns later (List.mem_cons_of_mem b member)]

/-- The loop over the values that keys lead to, as one over the keys. -/
theorem untilRaise_filterMap (raises : γ → Bool) {f : β → Option γ} {l : List β}
    (leads : ∀ b ∈ l, (f b).isSome) :
    untilRaise raises (l.filterMap f) =
      (untilRaise (fun b => (f b).any raises) l).filterMap f := by
  induction l with
  | nil => rfl
  | cons b rest ih =>
      obtain ⟨value, found⟩ := Option.isSome_iff_exists.mp (leads b List.mem_cons_self)
      rw [List.filterMap_cons_some found, untilRaise, untilRaise, found, Option.any_some]
      split
      · rw [List.filterMap_cons_some found, List.filterMap_nil]
      · rw [List.filterMap_cons_some found,
          ih fun later member => leads later (List.mem_cons_of_mem b member)]

end UntilRaise

namespace JobRouter

variable {α : Type}

/-- Different channels have different alerters. -/
def Distinct (router : JobRouter α) : Prop :=
  ∀ channel channel' alerter, router.channels.get? channel = some alerter →
    router.channels.get? channel' = some alerter → channel = channel'

/-- A matching rule names the channel, or no rule matches and it is the default. -/
def Names (job : RoutedJob) (channel : String) (router : JobRouter α) : Prop :=
  (∃ rule ∈ router.rules, rule.matches job = true ∧ rule.channel = channel) ∨
    (∀ rule ∈ router.rules, rule.matches job = false) ∧ channel = router.defaultChannel

/-- The channels of the table that the matching rules name, each as often as it is named. -/
def named (job : RoutedJob) (router : JobRouter α) : List String :=
  ((router.rules.filter fun rule => rule.matches job).map RoutingRule.channel).filter fun channel =>
    (router.channels.get? channel).isSome

theorem mem_channelsFor_iff (job : RoutedJob) (channel : String) (router : JobRouter α) :
    channel ∈ router.channelsFor job ↔ router.Names job channel := by
  unfold channelsFor Names
  dsimp only
  split
  · rename_i unmatched
    have none_ : ∀ rule ∈ router.rules, rule.matches job = false := by
      simpa using unmatched
    rw [List.mem_singleton, and_iff_right none_]
    refine (or_iff_right ?_).symm
    rintro ⟨rule, member, matched, -⟩
    rw [none_ rule member] at matched
    cases matched
  · rename_i matched
    have some_ : ¬ ∀ rule ∈ router.rules, rule.matches job = false := by
      simpa using matched
    rw [or_iff_left fun both => some_ both.1]
    simp [and_assoc]

/-- The alerters of a job come from the channels of the table. -/
theorem alertersFor_eq (job : RoutedJob) (router : JobRouter α) :
    router.alertersFor job = ((router.channelsFor job).filter fun channel =>
      (router.channels.get? channel).isSome).filterMap router.channels.get? := by
  rw [alertersFor, List.filterMap_filter]
  refine List.filterMap_congr fun channel _ => ?_
  cases router.channels.get? channel <;> rfl

/-- The default channel comes once. -/
theorem channelsFor_cases (job : RoutedJob) (router : JobRouter α) :
    (router.channelsFor job).filter (fun channel => (router.channels.get? channel).isSome) =
        router.named job ∨
      router.named job = [] ∧ router.channelsFor job = [router.defaultChannel] := by
  unfold channelsFor named
  dsimp only
  split
  · rename_i unmatched
    rw [unmatched]
    exact .inr ⟨rfl, rfl⟩
  · exact .inl rfl

/-- Through different channels, nobody is called twice exactly when no channel comes
twice. -/
theorem nodup_filterMap_iff {router : JobRouter α} (distinct : router.Distinct)
    {channels : List String} (leads : ∀ channel ∈ channels, (router.channels.get? channel).isSome) :
    (channels.filterMap router.channels.get?).Nodup ↔ channels.Nodup := by
  constructor
  · intro nodup
    have values : (channels.filterMap router.channels.get?).map some =
        channels.map router.channels.get? := by
      clear nodup
      induction channels with
      | nil => rfl
      | cons channel rest ih =>
          obtain ⟨alerter, found⟩ := Option.isSome_iff_exists.mp (leads channel List.mem_cons_self)
          rw [List.filterMap_cons_some found, List.map_cons, List.map_cons, found,
            ih fun later member => leads later (List.mem_cons_of_mem channel member)]
    refine List.Nodup.of_map router.channels.get? ?_
    rw [← values]
    exact nodup.map (Option.some_injective α)
  · exact List.Nodup.filterMap fun channel channel' alerter found found' =>
      distinct channel channel' alerter found found'

end JobRouter

namespace RoutingAlerter

variable {α : Type} (deliver : α → ExecutionResult → Except PyException Unit)
  (result : ExecutionResult)

def raises (alerter : α) : Bool := (deliver alerter result).toBool = false

/-- The calls that the loop makes. -/
theorem sendLoop_calls (alerters : List α) :
    (sendLoop deliver result alerters).2 =
      (untilRaise (raises deliver result) alerters).map fun alerter => (alerter, result) := by
  induction alerters with
  | nil => rfl
  | cons alerter rest ih =>
      rw [sendLoop, untilRaise, raises]
      cases deliver alerter result with
      | error e => rfl
      | ok done =>
          dsimp only
          rw [ih]
          rfl

/-- **One delivery each**: the alerters whose channel is named are called once with the
result, and there are no other calls. -/
structure DeliversOnce [DecidableEq α] (routing : RoutingAlerter α)
    (calls : List (α × ExecutionResult)) : Prop where
  once : ∀ channel alerter, routing.router.Names (routing.jobFor result.jobName) channel →
    routing.router.channels.get? channel = some alerter → calls.count (alerter, result) = 1
  only : ∀ call ∈ calls, call.2 = result ∧
    ∃ channel, routing.router.Names (routing.jobFor result.jobName) channel ∧
      routing.router.channels.get? channel = some call.1

variable [DecidableEq α]

/-- The loop over channels of the table calls each of their alerters once exactly when no
channel comes twice before the loop ends, and none comes only after that. -/
theorem loop_once_iff {router : JobRouter α} (distinct : router.Distinct) {channels : List String}
    (leads : ∀ channel ∈ channels, (router.channels.get? channel).isSome) :
    (∀ alerter ∈ channels.filterMap router.channels.get?,
        (sendLoop deliver result (channels.filterMap router.channels.get?)).2.count
          (alerter, result) = 1) ↔
      (untilRaise (fun channel => (router.channels.get? channel).any (raises deliver result))
          channels).Nodup ∧
        ∀ channel ∈ channels, channel ∈ untilRaise (fun channel =>
          (router.channels.get? channel).any (raises deliver result)) channels := by
  have called := untilRaise_filterMap (raises deliver result) leads
  have front := (untilRaise_isPrefix (fun channel =>
    (router.channels.get? channel).any (raises deliver result)) channels).subset
  rw [sendLoop_calls, called]
  generalize untilRaise (fun channel =>
    (router.channels.get? channel).any (raises deliver result)) channels = reached at front ⊢
  have counted : ∀ alerter, ((reached.filterMap router.channels.get?).map fun alerter =>
      (alerter, result)).count (alerter, result) =
        (reached.filterMap router.channels.get?).count alerter := fun alerter =>
    List.count_map_of_injective _ _ (fun _ _ same => (Prod.mk.inj same).1) alerter
  simp only [counted]
  rw [← JobRouter.nodup_filterMap_iff distinct fun channel member => leads channel (front member),
    List.nodup_iff_count_eq_one]
  constructor
  · intro once
    constructor
    · intro alerter member
      obtain ⟨channel, inFront, found⟩ := List.mem_filterMap.mp member
      exact once alerter (List.mem_filterMap.mpr ⟨channel, front inFront, found⟩)
    · intro channel member
      obtain ⟨alerter, found⟩ := Option.isSome_iff_exists.mp (leads channel member)
      have positive : 0 < (reached.filterMap router.channels.get?).count alerter := by
        rw [once alerter (List.mem_filterMap.mpr ⟨channel, member, found⟩)]
        exact Nat.zero_lt_one
      obtain ⟨channel', inFront, found'⟩ :=
        List.mem_filterMap.mp (List.count_pos_iff.mp positive)
      rwa [distinct channel channel' alerter found found']
  · rintro ⟨nodup, covered⟩ alerter member
    obtain ⟨channel, named, found⟩ := List.mem_filterMap.mp member
    exact nodup alerter (List.mem_filterMap.mpr ⟨channel, covered channel named, found⟩)

/-- **When an alert is delivered once**: of the channels of the table that the matching
rules name, up to the first whose alerter raises, none comes twice, and every later one
is among them. -/
theorem send_once_iff (routing : RoutingAlerter α) (distinct : routing.router.Distinct) :
    DeliversOnce result routing (routing.send deliver result).2 ↔
      let named := routing.router.named (routing.jobFor result.jobName)
      let reached := untilRaise (fun channel =>
        (routing.router.channels.get? channel).any (raises deliver result)) named
      reached.Nodup ∧ ∀ channel ∈ named, channel ∈ reached := by
  have leads : ∀ channel ∈ (routing.router.channelsFor (routing.jobFor result.jobName)).filter
      (fun channel => (routing.router.channels.get? channel).isSome),
      (routing.router.channels.get? channel).isSome := fun channel member =>
    (List.mem_filter.mp member).2
  have loop := loop_once_iff deliver result distinct leads
  rw [← JobRouter.alertersFor_eq] at loop
  have resolved : ∀ alerter, alerter ∈ routing.router.alertersFor (routing.jobFor result.jobName) ↔
      ∃ channel, routing.router.Names (routing.jobFor result.jobName) channel ∧
        routing.router.channels.get? channel = some alerter := by
    intro alerter
    rw [JobRouter.alertersFor, List.mem_filterMap]
    exact exists_congr fun channel => and_congr_left fun _ =>
      routing.router.mem_channelsFor_iff (routing.jobFor result.jobName) channel
  have once : DeliversOnce result routing (routing.send deliver result).2 ↔
      ∀ alerter ∈ routing.router.alertersFor (routing.jobFor result.jobName),
        (routing.send deliver result).2.count (alerter, result) = 1 := by
    constructor
    · intro delivers alerter member
      obtain ⟨channel, names, found⟩ := (resolved alerter).mp member
      exact delivers.once channel alerter names found
    · refine fun counts => ⟨fun channel alerter names found => ?_, fun call member => ?_⟩
      · exact counts alerter ((resolved alerter).mpr ⟨channel, names, found⟩)
      · rw [send, sendLoop_calls] at member
        obtain ⟨alerter, reached, rfl⟩ := List.mem_map.mp member
        exact ⟨rfl, (resolved alerter).mp ((untilRaise_isPrefix _ _).subset reached)⟩
  rw [once, send, loop]
  rcases JobRouter.channelsFor_cases (routing.jobFor result.jobName) routing.router with
    same | ⟨unnamed, default_⟩
  · rw [same]
  · -- no rule matches: there is one channel at most on either side
    rw [unnamed, default_]
    refine iff_of_true ?_ ⟨List.nodup_nil, fun _ none_ => none_⟩
    cases found : routing.router.channels.get? routing.router.defaultChannel <;>
      simp [found, untilRaise]

/-- Alerters that return are called once exactly when no two matching rules name one
channel of the table. -/
theorem once_of_returning {routing : RoutingAlerter α} (distinct : routing.router.Distinct)
    (returns : ∀ alerter, deliver alerter result = .ok ()) :
    DeliversOnce result routing (routing.send deliver result).2 ↔
      (routing.router.named (routing.jobFor result.jobName)).Nodup := by
  rw [send_once_iff deliver result routing distinct]
  dsimp only
  rw [untilRaise_of_returns]
  · exact and_iff_left fun _ member => member
  · intro channel _
    cases routing.router.channels.get? channel with
    | none => rfl
    | some alerter => simp [raises, returns, Except.toBool]

end RoutingAlerter

/-- The rule for a tag and the rule for a job name the same channel. -/
def overlapping : RoutingAlerter Nat where
  router :=
    { rules := [{ channel := "ops", tag := some "nightly" },
        { channel := "ops", jobName := some "backup" }, { channel := "log", jobName := some "sync" }],
      channels := (Dict.empty.set "ops" 1).set "log" 2 }
  jobs := Dict.empty.set "backup"
    { name := "backup", command := "backup.sh", schedule := "0 3 * * *", tags := ["nightly"] }

theorem overlapping_distinct : overlapping.router.Distinct := by
  intro channel channel' alerter found found'
  have entries : overlapping.router.channels.entries = [("ops", 1), ("log", 2)] := by decide
  rw [← Dict.mem_entries_iff, entries] at found found'
  simp only [List.mem_cons, Prod.mk.injEq, List.not_mem_nil, or_false] at found found'
  grind

/-- A failed run of a job. -/
def failedRun (jobName : String) : ExecutionResult where
  jobName := jobName
  exitCode := 1
  stdout := ""
  stderr := ""
  durationSeconds := 1
  startedAt := 0
  finishedAt := 1

/-- The alert for `sync`, which one rule matches, is delivered once. -/
theorem sync_delivered_once :
    RoutingAlerter.DeliversOnce (failedRun "sync") overlapping
      (overlapping.send (fun _ _ => .ok ()) (failedRun "sync")).2 := by
  refine (RoutingAlerter.send_once_iff _ _ overlapping overlapping_distinct).mpr ?_
  decide +kernel

/-- The alert for `backup`, which two rules with one channel match, is delivered twice. -/
theorem backup_delivered_twice :
    overlapping.router.Distinct ∧
      (overlapping.send (fun _ _ => .ok ()) (failedRun "backup")).2 =
        [(1, failedRun "backup"), (1, failedRun "backup")] ∧
      ¬ RoutingAlerter.DeliversOnce (failedRun "backup") overlapping
        (overlapping.send (fun _ _ => .ok ()) (failedRun "backup")).2 := by
  have calls : (overlapping.send (fun _ _ => .ok ()) (failedRun "backup")).2 =
      [(1, failedRun "backup"), (1, failedRun "backup")] := by
    decide +kernel
  refine ⟨overlapping_distinct, calls, fun delivers => ?_⟩
  have once := delivers.once "ops" 1
    (.inl ⟨{ channel := "ops", tag := some "nightly" }, List.mem_cons_self, by decide, rfl⟩) (by decide)
  rw [calls] at once
  revert once
  decide +kernel

end Cronwatch.Alerts
