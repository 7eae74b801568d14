/-
# Jobs.LoadConfig -- the configuration file

`load_config` makes a `CronwatchConfig` of what `yaml.safe_load` returns.  Nothing checks the
types of the values: a `LoadedConfig` has them as they are in the document, and `typed?` reads
the configuration from it that the rest of the program takes for granted.

A document is accepted exactly when it is empty or a dict, its jobs are a list of dicts that
each have a name, a command and a schedule, and an alert, where the key is present, is a dict
with a type (`loadConfig_returns_iff`).  So `alert:` with nothing after it is refused, where
`jobs:` with nothing after it is not.  What `toYaml` writes loads as it was
(`loadConfig_toYaml`).
-/
import Cronwatch.Jobs.Metadata
import Cronwatch.Runtime.Json

namespace Cronwatch.Runtime.Yaml

set_option autoImplicit false

open Cronwatch.Theory

/-! ## Values of a document -/

def typeName : Yaml → String
  | .scalar .none => "NoneType"
  | .scalar (.bool _) => "bool"
  | .scalar (.int _) => "int"
  | .scalar (.float _) => "float"
  | .scalar (.str _) => "str"
  | .scalar (.bytes _) => "bytes"
  | .scalar (.date _) => "datetime.date"
  | .scalar (.datetime _ _) => "datetime.datetime"
  | .list _ => "list"
  | .dict _ => "dict"
  | .set _ => "set"

/-- `value[key]`, for a text as the key. -/
def subscript (key : String) : Yaml → Except PyException Yaml
  | .dict entries =>
      match lookupKey (.str key) entries with
      | some value => .ok value
      | Option.none => .error (keyError key)
  | .scalar (.str _) => .error (.typeError "string indices must be integers, not 'str'")
  | .scalar (.bytes _) => .error (.typeError "byte indices must be integers or slices, not str")
  | .list _ => .error (.typeError "list indices must be integers or slices, not str")
  | value => .error (.typeError s!"'{value.typeName}' object is not subscriptable")

/-- The items that a loop goes through. -/
def iterate : Yaml → Except PyException (List Yaml)
  | .list items => .ok items
  | .dict entries => .ok (entries.map fun e => .scalar e.1)
  | .set members => .ok (members.map .scalar)
  | .scalar (.str s) => .ok (s.toList.map fun c => .scalar (.str c.toString))
  | .scalar (.bytes content) => .ok (content.map fun b => .scalar (.int b.toNat))
  | value => .error (.typeError s!"'{value.typeName}' object is not iterable")

/-- `value.get`, which only a dict has. -/
def entriesOf : Yaml → Except PyException (List (Scalar × Yaml))
  | .dict entries => .ok entries
  | value => .error (.attributeError s!"'{value.typeName}' object has no attribute 'get'")

/-- `value or default`. -/
def orElse (default_ value : Yaml) : Yaml := if value.truthy then value else default_

theorem subscript_returns_iff (key : String) (value : Yaml) :
    (∃ v, value.subscript key = .ok v) ↔
      ∃ entries, value = .dict entries ∧ (lookupKey (.str key) entries).isSome := by
  rcases value with ⟨_ | _ | _ | _ | _ | _ | _ | _⟩ | _ | entries | _ <;> try simp [subscript]
  cases lookupKey (.str key) entries <;> simp

theorem eq_dict_of_entriesOf {value : Yaml} {entries : List (Scalar × Yaml)}
    (got : value.entriesOf = .ok entries) : value = .dict entries := by
  cases value <;> cases got
  rfl

/-- What the loop goes through in anything but a list has no items of its own to subscribe. -/
theorem iterate_scalars {value : Yaml} (noList : ∀ items, value ≠ .list items) {items : List Yaml}
    (iterated : value.iterate = .ok items) : ∀ item ∈ items, ∃ s, item = .scalar s := by
  rcases value with ⟨_ | _ | _ | _ | _ | _ | _ | _⟩ | items' | _ | _ <;>
    simp only [iterate, Except.ok.injEq, reduceCtorEq] at iterated <;> try subst iterated
  all_goals try (intro item member; obtain ⟨x, -, rfl⟩ := List.mem_map.mp member; exact ⟨_, rfl⟩)
  exact absurd rfl (noList items')

/-- A value that counts as true has items where it can be iterated. -/
theorem iterate_ne_nil {value : Yaml} (true_ : value.truthy = true) {items : List Yaml}
    (iterated : value.iterate = .ok items) : items ≠ [] := by
  rcases value with ⟨_ | _ | _ | _ | _ | _ | _ | _⟩ | _ | _ | _ <;>
    simp only [iterate, Except.ok.injEq, reduceCtorEq] at iterated <;> subst iterated <;>
    simpa [truthy] using true_

def text (s : String) : Yaml := .scalar (.str s)

def text? : Yaml → Option String
  | .scalar (.str s) => some s
  | _ => Option.none

def int? : Yaml → Option Int
  | .scalar (.int n) => some n
  | _ => Option.none

def bool? : Yaml → Option Bool
  | .scalar (.bool b) => some b
  | _ => Option.none

def texts? : Yaml → Option (List String)
  | .list items => items.mapM text?
  | _ => Option.none

def textDict? : Yaml → Option (Dict String String)
  | .dict entries => do
      let texts ← entries.mapM fun e => do return (← text? (.scalar e.1), ← text? e.2)
      return texts.foldl (fun d e => d.set e.1 e.2) .empty
  | _ => Option.none

def ofTexts (texts : List String) : Yaml := .list (texts.map text)

def ofTextDict (d : Dict String String) : Yaml :=
  .dict (d.entries.map fun e => (.str e.1, text e.2))

theorem texts?_ofTexts (texts : List String) : texts? (ofTexts texts) = some texts := by
  rw [ofTexts, texts?]
  induction texts with
  | nil => rfl
  | cons s rest ih => rw [List.map_cons, List.mapM_cons, ih]; rfl

theorem textDict?_ofTextDict (d : Dict String String) : textDict? (ofTextDict d) = some d := by
  have read : ∀ es : List (String × String),
      (es.map fun e => ((.str e.1 : Scalar), text e.2)).mapM
        (fun e => do return (← text? (.scalar e.1), ← text? e.2)) = some es := by
    intro es
    induction es with
    | nil => rfl
    | cons e rest ih => rw [List.map_cons, List.mapM_cons, ih]; rfl
  rw [ofTextDict, textDict?, read]
  apply congrArg some
  apply Dict.eq_of_entries
  exact (Dict.entries_foldl_set .empty d.nodup_keys).trans (List.nil_append _)

/-- A value of the right kind is not replaced where `or` would put its own empty one. -/
theorem orElse_list (items : List Yaml) : orElse (.list []) (.list items) = .list items := by
  cases items <;> rfl

theorem orElse_dict (entries : List (Scalar × Yaml)) :
    orElse (.dict []) (.dict entries) = .dict entries := by
  cases entries <;> rfl

end Cronwatch.Runtime.Yaml

namespace Cronwatch.Jobs

set_option autoImplicit false

open Cronwatch.Theory Cronwatch.Runtime

/-! ## Configurations -/

structure AlertConfig where
  type : String
  recipients : List String := []
  smtpHost : String := "localhost"
  smtpPort : Int := 25
  sender : String := "cronwatch@localhost"
deriving DecidableEq

structure CronwatchConfig where
  jobs : List JobConfig := []
  alert : Option AlertConfig := none
  historyPath : String := "/var/lib/cronwatch/history.json"
  auditPath : String := "/var/lib/cronwatch/audit.jsonl"
  healthcheckPort : Int := 0
  metricsPort : Int := 0
  digestIntervalHours : Int := 24
  notifyIntervalSeconds : Int := 3600
  maxAlertsPerWindow : Int := 10
  alertWindowSeconds : Int := 3600
  lockDir : String := "/tmp/cronwatch/locks"
  retentionDays : Int := 30
  retentionMaxEntries : Int := 1000
deriving DecidableEq

/-- A `JobConfig` with the values of the document. -/
structure LoadedJob where
  name : Yaml
  command : Yaml
  schedule : Yaml
  enabled : Yaml
  timeout : Yaml
  tags : Yaml
  labels : Yaml
  dependsOn : Yaml

/-- An `AlertConfig` with the values of the document. -/
structure LoadedAlert where
  type : Yaml
  recipients : Yaml
  smtpHost : Yaml
  smtpPort : Yaml
  sender : Yaml

/-- A `CronwatchConfig` with the values of the document. -/
structure LoadedConfig where
  jobs : List LoadedJob
  alert : Option LoadedAlert
  historyPath : Yaml
  auditPath : Yaml
  healthcheckPort : Yaml
  metricsPort : Yaml
  digestIntervalHours : Yaml
  notifyIntervalSeconds : Yaml
  maxAlertsPerWindow : Yaml
  alertWindowSeconds : Yaml
  lockDir : Yaml
  retentionDays : Yaml
  retentionMaxEntries : Yaml

/-- `raw.get(key, default)`. -/
def getOr (entries : List (Scalar × Yaml)) (key : String) (default_ : Yaml) : Yaml :=
  (valueUnder key entries).getD default_

open Yaml (text) in
def parseJob (raw : Yaml) : Except PyException LoadedJob := do
  let name ← raw.subscript "name"
  let command ← raw.subscript "command"
  let schedule ← raw.subscript "schedule"
  let entries ← raw.entriesOf
  return {
    name, command, schedule
    enabled := getOr entries "enabled" (.scalar (.bool true))
    timeout := getOr entries "timeout" (.scalar (.int 0))
    tags := Yaml.orElse (.list []) (getOr entries "tags" .none)
    labels := Yaml.orElse (.dict []) (getOr entries "labels" .none)
    dependsOn := Yaml.orElse (.list []) (getOr entries "depends_on" .none) }

def parseAlert (raw : Yaml) : Except PyException LoadedAlert := do
  let type ← raw.subscript "type"
  let entries ← raw.entriesOf
  return {
    type
    recipients := Yaml.orElse (.list []) (getOr entries "recipients" .none)
    smtpHost := getOr entries "smtp_host" (.text "localhost")
    smtpPort := getOr entries "smtp_port" (.scalar (.int 25))
    sender := getOr entries "sender" (.text "cronwatch@localhost") }

/-- `load_config` from the document on. -/
def parseConfig (document : Yaml) : Except PyException LoadedConfig := do
  let raw := Yaml.orElse (.dict []) document
  let entries ← raw.entriesOf
  let items ← (Yaml.orElse (.list []) (getOr entries "jobs" .none)).iterate
  let jobs ← items.mapM parseJob
  let alert ← (valueUnder "alert" entries).mapM parseAlert
  return {
    jobs, alert
    historyPath := getOr entries "history_path" (.text "/var/lib/cronwatch/history.json")
    auditPath := getOr entries "audit_path" (.text "/var/lib/cronwatch/audit.jsonl")
    healthcheckPort := getOr entries "healthcheck_port" (.scalar (.int 0))
    metricsPort := getOr entries "metrics_port" (.scalar (.int 0))
    digestIntervalHours := getOr entries "digest_interval_hours" (.scalar (.int 24))
    notifyIntervalSeconds := getOr entries "notify_interval_seconds" (.scalar (.int 3600))
    maxAlertsPerWindow := getOr entries "max_alerts_per_window" (.scalar (.int 10))
    alertWindowSeconds := getOr entries "alert_window_seconds" (.scalar (.int 3600))
    lockDir := getOr entries "lock_dir" (.text "/tmp/cronwatch/locks")
    retentionDays := getOr entries "retention_days" (.scalar (.int 30))
    retentionMaxEntries := getOr entries "retention_max_entries" (.scalar (.int 1000)) }

/-- `fileExists` is `os.path.exists`, and `safeLoad` opens the file and reads its document. -/
def loadConfig (fileExists : String → Bool) (safeLoad : String → Except PyException Yaml)
    (path : String) : Except PyException LoadedConfig :=
  if fileExists path then safeLoad path >>= parseConfig
  else .error (.foreign s!"Config file not found: {path}")

/-! ## Accepted documents -/

/-- A dict with what a job must have. -/
def IsJob (raw : Yaml) : Prop :=
  ∃ entries, raw = .dict entries ∧
    ∀ key ∈ ["name", "command", "schedule"], (valueUnder key entries).isSome

/-- The entries of a document that is accepted. -/
structure Accepted (entries : List (Scalar × Yaml)) : Prop where
  jobs : (getOr entries "jobs" .none).truthy = true →
    ∃ items, getOr entries "jobs" .none = .list items ∧ ∀ item ∈ items, IsJob item
  alert : ∀ raw, valueUnder "alert" entries = some raw →
    ∃ fields, raw = .dict fields ∧ (valueUnder "type" fields).isSome

theorem parseJob_returns_iff (raw : Yaml) : (∃ job, parseJob raw = .ok job) ↔ IsJob raw := by
  simp only [IsJob, List.forall_mem_cons, List.not_mem_nil, false_imp_iff, implies_true, and_true]
  constructor
  · intro parsed
    obtain ⟨name, hasName, parsed⟩ := bind_returns_iff.mp parsed
    obtain ⟨command, hasCommand, parsed⟩ := bind_returns_iff.mp parsed
    obtain ⟨schedule, hasSchedule, -⟩ := bind_returns_iff.mp parsed
    obtain ⟨entries, rfl, one⟩ := (Yaml.subscript_returns_iff _ _).mp ⟨name, hasName⟩
    obtain ⟨_, ⟨⟩, two⟩ := (Yaml.subscript_returns_iff _ _).mp ⟨command, hasCommand⟩
    obtain ⟨_, ⟨⟩, three⟩ := (Yaml.subscript_returns_iff _ _).mp ⟨schedule, hasSchedule⟩
    exact ⟨entries, rfl, one, two, three⟩
  · rintro ⟨entries, rfl, one, two, three⟩
    obtain ⟨name, hasName⟩ := (Yaml.subscript_returns_iff _ _).mpr ⟨entries, rfl, one⟩
    obtain ⟨command, hasCommand⟩ := (Yaml.subscript_returns_iff _ _).mpr ⟨entries, rfl, two⟩
    obtain ⟨schedule, hasSchedule⟩ := (Yaml.subscript_returns_iff _ _).mpr ⟨entries, rfl, three⟩
    rw [parseJob, hasName, hasCommand, hasSchedule]
    exact ⟨_, rfl⟩

theorem parseAlert_returns_iff (raw : Yaml) : (∃ alert, parseAlert raw = .ok alert) ↔
    ∃ fields, raw = .dict fields ∧ (valueUnder "type" fields).isSome := by
  rw [show (∃ fields, raw = .dict fields ∧ (valueUnder "type" fields).isSome) ↔
    ∃ type, raw.subscript "type" = .ok type from (Yaml.subscript_returns_iff _ _).symm]
  constructor
  · intro parsed
    obtain ⟨type, hasType, -⟩ := bind_returns_iff.mp parsed
    exact ⟨type, hasType⟩
  · rintro ⟨type, hasType⟩
    obtain ⟨fields, rfl, -⟩ := (Yaml.subscript_returns_iff _ _).mp ⟨type, hasType⟩
    rw [parseAlert, hasType]
    exact ⟨_, rfl⟩

/-- The jobs of a document are parsed exactly where they are a list of jobs. -/
theorem jobs_returns_iff (value : Yaml) :
    (∃ items, (Yaml.orElse (.list []) value).iterate = .ok items ∧ ∃ jobs, items.mapM parseJob = .ok jobs) ↔
      (value.truthy = true → ∃ items, value = .list items ∧ ∀ item ∈ items, IsJob item) := by
  simp only [mapM_returns_iff, parseJob_returns_iff]
  cases true_ : value.truthy with
  | false =>
      rw [Yaml.orElse, true_, if_neg Bool.false_ne_true]
      exact iff_of_true ⟨[], rfl, by simp⟩ (by simp)
  | true =>
      rw [Yaml.orElse, true_, if_pos rfl]
      constructor
      · rintro ⟨items, iterated, parsed⟩ -
        by_cases list : ∃ items', value = .list items'
        · obtain ⟨items', rfl⟩ := list
          cases iterated
          exact ⟨items, rfl, parsed⟩
        · exfalso
          have noList : ∀ items', value ≠ .list items' := fun items' same => list ⟨items', same⟩
          obtain ⟨item, member⟩ := List.exists_mem_of_ne_nil items (Yaml.iterate_ne_nil true_ iterated)
          obtain ⟨s, rfl⟩ := Yaml.iterate_scalars noList iterated item member
          obtain ⟨entries, same, -⟩ := parsed _ member
          cases same
      · intro given
        obtain ⟨items, rfl, jobs⟩ := given rfl
        exact ⟨items, rfl, jobs⟩

theorem alert_returns_iff (entries : List (Scalar × Yaml)) :
    (∃ alert, (valueUnder "alert" entries).mapM parseAlert = .ok alert) ↔
      ∀ raw, valueUnder "alert" entries = some raw →
        ∃ fields, raw = .dict fields ∧ (valueUnder "type" fields).isSome := by
  cases valueUnder "alert" entries with
  | none => exact iff_of_true ⟨none, rfl⟩ (by simp)
  | some raw =>
      simp only [Option.some.injEq, forall_eq', ← parseAlert_returns_iff]
      constructor
      · rintro ⟨alert, parsed⟩
        obtain ⟨a, first, -⟩ := returned_of_bind parsed
        exact ⟨a, first⟩
      · rintro ⟨a, parsed⟩
        refine ⟨some a, ?_⟩
        show (parseAlert raw >>= fun a => pure (some a)) = _
        rw [parsed]
        rfl

/-- The documents that are accepted: nothing, or a dict with proper jobs and a proper alert. -/
theorem parseConfig_returns_iff (document : Yaml) :
    (∃ config, parseConfig document = .ok config) ↔
      document.truthy = false ∨ ∃ entries, document = .dict entries ∧ Accepted entries := by
  have parsed_iff : ∀ entries, (∃ config, parseConfig (.dict entries) = .ok config) ↔ Accepted entries := by
    intro entries
    have raw : Yaml.orElse (.dict []) (.dict entries) = .dict entries := Yaml.orElse_dict entries
    rw [parseConfig, raw]
    show (∃ config, ((Yaml.orElse (.list []) (getOr entries "jobs" .none)).iterate >>= _) = .ok config) ↔ _
    rw [bind_returns_iff]
    constructor
    · rintro ⟨items, iterated, parsed⟩
      obtain ⟨jobs, parsedJobs, parsed⟩ := bind_returns_iff.mp parsed
      obtain ⟨alert, parsedAlert, -⟩ := bind_returns_iff.mp parsed
      exact ⟨(jobs_returns_iff _).mp ⟨items, iterated, jobs, parsedJobs⟩,
        (alert_returns_iff entries).mp ⟨alert, parsedAlert⟩⟩
    · intro accepted
      obtain ⟨items, iterated, jobs, parsedJobs⟩ := (jobs_returns_iff _).mpr accepted.jobs
      obtain ⟨alert, parsedAlert⟩ := (alert_returns_iff entries).mpr accepted.alert
      refine ⟨items, iterated, bind_returns_iff.mpr ⟨jobs, parsedJobs, ?_⟩⟩
      exact bind_returns_iff.mpr ⟨alert, parsedAlert, _, rfl⟩
  cases true_ : document.truthy with
  | false =>
      have empty : Yaml.orElse (.dict []) document = .dict [] := by
        rw [Yaml.orElse, true_, if_neg Bool.false_ne_true]
      have same : parseConfig document = parseConfig (.dict []) := by
        rw [parseConfig, parseConfig, empty, Yaml.orElse_dict]
      rw [same, parsed_iff]
      refine iff_of_true ⟨fun jobs => ?_, fun raw found => ?_⟩ (.inl rfl)
      · cases jobs
      · cases found
  | true =>
      simp only [Bool.true_eq_false, false_or]
      have kept : Yaml.orElse (.dict []) document = document := by
        rw [Yaml.orElse, true_, if_pos rfl]
      constructor
      · intro parsed
        obtain ⟨config, parsed⟩ := parsed
        obtain ⟨entries, got, -⟩ := returned_of_bind parsed
        rw [kept] at got
        have same := Yaml.eq_dict_of_entriesOf got
        subst same
        exact ⟨entries, rfl, (parsed_iff entries).mp ⟨config, parsed⟩⟩
      · rintro ⟨entries, rfl, accepted⟩
        exact (parsed_iff entries).mpr accepted

/-- **The accepted files.**  `load_config` returns exactly where the file is there, has a
document, and the document is empty or a dict whose jobs are a list of dicts with name, command
and schedule, and whose alert, where there is the key, is a dict with a type. -/
theorem loadConfig_returns_iff (fileExists : String → Bool) (safeLoad : String → Except PyException Yaml)
    (path : String) :
    (∃ config, loadConfig fileExists safeLoad path = .ok config) ↔
      fileExists path = true ∧ ∃ document, safeLoad path = .ok document ∧
        (document.truthy = false ∨ ∃ entries, document = .dict entries ∧ Accepted entries) := by
  rw [loadConfig]
  split
  · rename_i there
    simp only [bind_returns_iff, parseConfig_returns_iff, there, true_and]
  · rename_i gone
    exact iff_of_false (fun ⟨_, same⟩ => nomatch same) fun ⟨there, _⟩ => gone there

/-! ## Fields of a document -/

structure Field where
  key : String
  /-- Whether the value is the default of the field. -/
  isDefault : Bool
  value : Yaml

/-- A document with these fields; of those that have their default, `skips` leaves some out. -/
def written (skips : String → Bool) (fields : List Field) : List (Scalar × Yaml) :=
  (fields.filter fun f => !(skips f.key && f.isDefault)).map fun f => (.str f.key, f.value)

section Fields

variable {skips : String → Bool} {fields : List Field}

theorem valueUnder_cons (key : String) (entry : Scalar × Yaml) (rest : List (Scalar × Yaml)) :
    valueUnder key (entry :: rest) =
      if entry.1.key = .str key then some entry.2 else valueUnder key rest := by
  rw [valueUnder, lookupKey, List.find?_cons]
  split <;> rename_i found <;> simp only [decide_eq_true_eq, decide_eq_false_iff_not] at found
  · rw [if_pos found]
    rfl
  · rw [if_neg found]
    rfl

theorem valueUnder_written_of_ne {key : String} (other : ∀ f ∈ fields, f.key ≠ key) :
    valueUnder key (written skips fields) = none := by
  rw [valueUnder, lookupKey, Option.map_eq_none_iff, List.find?_eq_none]
  intro entry member
  obtain ⟨f, kept, rfl⟩ := List.mem_map.mp member
  rw [decide_eq_true_eq, Scalar.key_eq_str_iff, Scalar.str.injEq]
  exact other f (List.mem_of_mem_filter kept)

theorem valueUnder_written (distinct : (fields.map Field.key).Nodup) {f : Field} (member : f ∈ fields) :
    valueUnder f.key (written skips fields) =
      if skips f.key && f.isDefault then none else some f.value := by
  induction fields with
  | nil => cases member
  | cons g rest ih =>
      rw [List.map_cons, List.nodup_cons] at distinct
      have cases_ : written skips (g :: rest) =
          (if skips g.key && g.isDefault then [] else [(Scalar.str g.key, g.value)]) ++
            written skips rest := by
        rw [written, List.filter_cons, written]
        cases skips g.key && g.isDefault <;> rfl
      rw [cases_]
      rcases List.mem_cons.mp member with rfl | later
      · split
        · exact valueUnder_written_of_ne fun h inside same =>
            distinct.1 (same ▸ List.mem_map_of_mem inside)
        · exact (valueUnder_cons _ _ _).trans (if_pos rfl)
      · have ne : (Scalar.str g.key).key ≠ .str f.key := by
          rw [ne_eq, Scalar.key_eq_str_iff, Scalar.str.injEq]
          exact fun same => distinct.1 (same ▸ List.mem_map_of_mem later)
        rw [← ih distinct.2 later]
        split
        · rfl
        · rw [List.singleton_append, valueUnder_cons, if_neg ne]

variable (skips)

theorem getOr_written (distinct : (fields.map Field.key).Nodup) (f : Field) (member : f ∈ fields)
    (default_ : Yaml) (same : f.isDefault = true → f.value = default_) :
    getOr (written skips fields) f.key default_ = f.value := by
  rw [getOr, valueUnder_written distinct member]
  split
  · rename_i left
    rw [Bool.and_eq_true] at left
    rw [same left.2, Option.getD_none]
  · rw [Option.getD_some]

/-- An empty container that was left out is what `or` puts in its place. -/
theorem orElse_written (distinct : (fields.map Field.key).Nodup) (f : Field) (member : f ∈ fields)
    (empty : Yaml) (same : f.isDefault = true → f.value = empty)
    (kept : Yaml.orElse empty f.value = f.value) :
    Yaml.orElse empty (getOr (written skips fields) f.key .none) = f.value := by
  rw [getOr, valueUnder_written distinct member]
  split
  · rename_i left
    rw [Bool.and_eq_true] at left
    rw [same left.2, Option.getD_none]
    rfl
  · rw [Option.getD_some, kept]

theorem subscript_written (distinct : (fields.map Field.key).Nodup) (f : Field) (member : f ∈ fields)
    (required : f.isDefault = false) :
    (Yaml.dict (written skips fields)).subscript f.key = .ok f.value := by
  have found : valueUnder f.key (written skips fields) = _ := valueUnder_written distinct member
  rw [required, Bool.and_false, if_neg Bool.false_ne_true, valueUnder] at found
  rw [Yaml.subscript, found]

theorem valueUnder_of_subscript {key : String} {entries : List (Scalar × Yaml)} {value : Yaml}
    (found : (Yaml.dict entries).subscript key = .ok value) : valueUnder key entries = some value := by
  rw [Yaml.subscript] at found
  split at found <;> cases found
  assumption

end Fields

/-! ## A configuration as a document -/

open Yaml (ofTexts ofTextDict text? int? bool? texts? textDict?)

def JobConfig.fields (job : JobConfig) : List Field :=
  [⟨"name", false, .text job.name⟩, ⟨"command", false, .text job.command⟩,
    ⟨"schedule", false, .text job.schedule⟩,
    ⟨"enabled", job.enabled, .scalar (.bool job.enabled)⟩,
    ⟨"timeout", job.timeout = 0, .scalar (.int job.timeout)⟩,
    ⟨"tags", job.tags.isEmpty, ofTexts job.tags⟩,
    ⟨"labels", job.labels.entries.isEmpty, ofTextDict job.labels⟩,
    ⟨"depends_on", job.dependsOn.isEmpty, ofTexts job.dependsOn⟩]

def AlertConfig.fields (alert : AlertConfig) : List Field :=
  [⟨"type", false, .text alert.type⟩,
    ⟨"recipients", alert.recipients.isEmpty, ofTexts alert.recipients⟩,
    ⟨"smtp_host", alert.smtpHost = "localhost", .text alert.smtpHost⟩,
    ⟨"smtp_port", alert.smtpPort = 25, .scalar (.int alert.smtpPort)⟩,
    ⟨"sender", alert.sender = "cronwatch@localhost", .text alert.sender⟩]

def LoadedJob.ofConfig (job : JobConfig) : LoadedJob where
  name := .text job.name
  command := .text job.command
  schedule := .text job.schedule
  enabled := .scalar (.bool job.enabled)
  timeout := .scalar (.int job.timeout)
  tags := ofTexts job.tags
  labels := ofTextDict job.labels
  dependsOn := ofTexts job.dependsOn

theorem orElse_ofTexts (texts : List String) :
    Yaml.orElse (.list []) (ofTexts texts) = ofTexts texts := Yaml.orElse_list _

theorem ofTexts_of_isEmpty {texts : List String} (empty : texts.isEmpty = true) :
    ofTexts texts = .list [] := by
  rw [List.isEmpty_iff.mp empty]
  rfl

theorem ofTextDict_of_isEmpty {d : Dict String String} (empty : d.entries.isEmpty = true) :
    ofTextDict d = .dict [] := by
  rw [ofTextDict, List.isEmpty_iff.mp empty]
  rfl

theorem parseJob_fields (skips : String → Bool) (job : JobConfig) :
    parseJob (.dict (written skips job.fields)) = .ok (.ofConfig job) := by
  have distinct : (job.fields.map Field.key).Nodup := by simp [JobConfig.fields]
  have name := subscript_written skips distinct ⟨"name", false, .text job.name⟩
    (by simp [JobConfig.fields]) rfl
  have command := subscript_written skips distinct ⟨"command", false, .text job.command⟩
    (by simp [JobConfig.fields]) rfl
  have schedule := subscript_written skips distinct ⟨"schedule", false, .text job.schedule⟩
    (by simp [JobConfig.fields]) rfl
  have enabled := getOr_written skips distinct
    ⟨"enabled", job.enabled, .scalar (.bool job.enabled)⟩ (by simp [JobConfig.fields])
    (.scalar (.bool true)) fun same => congrArg (Yaml.scalar ∘ Scalar.bool) same
  have timeout := getOr_written skips distinct
    ⟨"timeout", job.timeout = 0, .scalar (.int job.timeout)⟩ (by simp [JobConfig.fields])
    (.scalar (.int 0)) fun same => congrArg (Yaml.scalar ∘ Scalar.int) (of_decide_eq_true same)
  have tags := orElse_written skips distinct ⟨"tags", job.tags.isEmpty, ofTexts job.tags⟩
    (by simp [JobConfig.fields]) (.list []) ofTexts_of_isEmpty (orElse_ofTexts _)
  have labels := orElse_written skips distinct
    ⟨"labels", job.labels.entries.isEmpty, ofTextDict job.labels⟩ (by simp [JobConfig.fields])
    (.dict []) ofTextDict_of_isEmpty (Yaml.orElse_dict _)
  have dependsOn := orElse_written skips distinct
    ⟨"depends_on", job.dependsOn.isEmpty, ofTexts job.dependsOn⟩ (by simp [JobConfig.fields])
    (.list []) ofTexts_of_isEmpty (orElse_ofTexts _)
  rw [parseJob, name, command, schedule]
  show Except.ok _ = Except.ok _
  rw [enabled, timeout, tags, labels, dependsOn]
  rfl

def LoadedAlert.ofConfig (alert : AlertConfig) : LoadedAlert where
  type := .text alert.type
  recipients := ofTexts alert.recipients
  smtpHost := .text alert.smtpHost
  smtpPort := .scalar (.int alert.smtpPort)
  sender := .text alert.sender

theorem parseAlert_fields (skips : String → Bool) (alert : AlertConfig) :
    parseAlert (.dict (written skips alert.fields)) = .ok (.ofConfig alert) := by
  have distinct : (alert.fields.map Field.key).Nodup := by simp [AlertConfig.fields]
  have type := subscript_written skips distinct ⟨"type", false, .text alert.type⟩
    (by simp [AlertConfig.fields]) rfl
  have recipients := orElse_written skips distinct
    ⟨"recipients", alert.recipients.isEmpty, ofTexts alert.recipients⟩
    (by simp [AlertConfig.fields]) (.list []) ofTexts_of_isEmpty (orElse_ofTexts _)
  have smtpHost := getOr_written skips distinct
    ⟨"smtp_host", alert.smtpHost = "localhost", .text alert.smtpHost⟩
    (by simp [AlertConfig.fields]) (.text "localhost")
    fun same => congrArg Yaml.text (of_decide_eq_true same)
  have smtpPort := getOr_written skips distinct
    ⟨"smtp_port", alert.smtpPort = 25, .scalar (.int alert.smtpPort)⟩
    (by simp [AlertConfig.fields]) (.scalar (.int 25))
    fun same => congrArg (Yaml.scalar ∘ Scalar.int) (of_decide_eq_true same)
  have sender := getOr_written skips distinct
    ⟨"sender", alert.sender = "cronwatch@localhost", .text alert.sender⟩
    (by simp [AlertConfig.fields]) (.text "cronwatch@localhost")
    fun same => congrArg Yaml.text (of_decide_eq_true same)
  rw [parseAlert, type]
  show Except.ok _ = Except.ok _
  rw [recipients, smtpHost, smtpPort, sender]
  rfl

/-- A setting with a text, and one with a number. -/
def textField (key default_ value : String) : Field := ⟨key, value = default_, .text value⟩

def intField (key : String) (default_ value : Int) : Field :=
  ⟨key, value = default_, .scalar (.int value)⟩

def CronwatchConfig.settings (config : CronwatchConfig) : List Field :=
  [textField "history_path" "/var/lib/cronwatch/history.json" config.historyPath,
    textField "audit_path" "/var/lib/cronwatch/audit.jsonl" config.auditPath,
    intField "healthcheck_port" 0 config.healthcheckPort,
    intField "metrics_port" 0 config.metricsPort,
    intField "digest_interval_hours" 24 config.digestIntervalHours,
    intField "notify_interval_seconds" 3600 config.notifyIntervalSeconds,
    intField "max_alerts_per_window" 10 config.maxAlertsPerWindow,
    intField "alert_window_seconds" 3600 config.alertWindowSeconds,
    textField "lock_dir" "/tmp/cronwatch/locks" config.lockDir,
    intField "retention_days" 30 config.retentionDays,
    intField "retention_max_entries" 1000 config.retentionMaxEntries]

/-- The fields that are left out where they have their default: of every job by its place in
the list, of the alert, and of the configuration. -/
structure Skips where
  ofJob : Nat → String → Bool
  ofAlert : String → Bool
  ofConfig : String → Bool

def CronwatchConfig.jobDocuments (skips : Nat → String → Bool) (jobs : List JobConfig) : List Yaml :=
  jobs.mapIdx fun i job => .dict (written (skips i) job.fields)

def CronwatchConfig.fields (skips : Skips) (config : CronwatchConfig) : List Field :=
  ⟨"jobs", config.jobs.isEmpty, .list (jobDocuments skips.ofJob config.jobs)⟩ ::
    config.alert.toList.map (fun alert => ⟨"alert", false, .dict (written skips.ofAlert alert.fields)⟩) ++
    config.settings

/-- A document of the configuration. -/
def CronwatchConfig.toYaml (skips : Skips) (config : CronwatchConfig) : Yaml :=
  .dict (written skips.ofConfig (config.fields skips))

def LoadedConfig.ofConfig (config : CronwatchConfig) : LoadedConfig where
  jobs := config.jobs.map .ofConfig
  alert := config.alert.map .ofConfig
  historyPath := .text config.historyPath
  auditPath := .text config.auditPath
  healthcheckPort := .scalar (.int config.healthcheckPort)
  metricsPort := .scalar (.int config.metricsPort)
  digestIntervalHours := .scalar (.int config.digestIntervalHours)
  notifyIntervalSeconds := .scalar (.int config.notifyIntervalSeconds)
  maxAlertsPerWindow := .scalar (.int config.maxAlertsPerWindow)
  alertWindowSeconds := .scalar (.int config.alertWindowSeconds)
  lockDir := .text config.lockDir
  retentionDays := .scalar (.int config.retentionDays)
  retentionMaxEntries := .scalar (.int config.retentionMaxEntries)

section Settings

variable (skips : String → Bool) {fields : List Field} (distinct : (fields.map Field.key).Nodup)
include distinct

theorem getOr_textField {key default_ value : String} (member : textField key default_ value ∈ fields) :
    getOr (written skips fields) key (.text default_) = .text value :=
  getOr_written skips distinct (textField key default_ value) member _
    fun same => congrArg Yaml.text (of_decide_eq_true same)

theorem getOr_intField {key : String} {default_ value : Int}
    (member : intField key default_ value ∈ fields) :
    getOr (written skips fields) key (.scalar (.int default_)) = .scalar (.int value) :=
  getOr_written skips distinct (intField key default_ value) member _
    fun same => congrArg (Yaml.scalar ∘ Scalar.int) (of_decide_eq_true same)

end Settings

theorem distinct_fields (skips : Skips) (config : CronwatchConfig) :
    ((config.fields skips).map Field.key).Nodup := by
  cases h : config.alert <;>
    simp [CronwatchConfig.fields, CronwatchConfig.settings, textField, intField, h]

/-- The settings are among the fields. -/
theorem mem_fields_of_settings (skips : Skips) {config : CronwatchConfig} {f : Field}
    (member : f ∈ config.settings) : f ∈ config.fields skips :=
  List.mem_append_right _ member

theorem alert_toYaml (skips : Skips) (config : CronwatchConfig) :
    (valueUnder "alert" (written skips.ofConfig (config.fields skips))).mapM parseAlert =
      .ok (config.alert.map .ofConfig) := by
  have distinct := distinct_fields skips config
  cases given : config.alert with
  | none =>
      have absent : valueUnder "alert" (written skips.ofConfig (config.fields skips)) = none := by
        apply valueUnder_written_of_ne
        simp [CronwatchConfig.fields, CronwatchConfig.settings, textField, intField, given]
      rw [absent]
      rfl
  | some alert =>
      have parsed := subscript_written skips.ofConfig distinct
        ⟨"alert", false, .dict (written skips.ofAlert alert.fields)⟩ (by simp [CronwatchConfig.fields, given]) rfl
      rw [valueUnder_of_subscript parsed]
      show (parseAlert _ >>= fun a => pure (some a)) = _
      rw [parseAlert_fields]
      rfl

theorem parseJob_jobDocuments (skips : Nat → String → Bool) (jobs : List JobConfig) :
    (CronwatchConfig.jobDocuments skips jobs).mapM parseJob = .ok (jobs.map .ofConfig) := by
  induction jobs generalizing skips with
  | nil => rfl
  | cons job rest ih =>
      rw [CronwatchConfig.jobDocuments, List.mapIdx_cons, List.mapM_cons, parseJob_fields]
      show ((CronwatchConfig.jobDocuments (fun i => skips (i + 1)) rest).mapM parseJob >>= _) = _
      rw [ih]
      rfl

theorem parseConfig_toYaml (skips : Skips) (config : CronwatchConfig) :
    parseConfig (config.toYaml skips) = .ok (.ofConfig config) := by
  have distinct := distinct_fields skips config
  have jobs := orElse_written skips.ofConfig distinct
    ⟨"jobs", config.jobs.isEmpty, .list (CronwatchConfig.jobDocuments skips.ofJob config.jobs)⟩
    (by simp [CronwatchConfig.fields]) (.list [])
    (fun same => by rw [List.isEmpty_iff.mp same]; rfl) (Yaml.orElse_list _)
  have text_ : ∀ {key default_ value}, textField key default_ value ∈ config.settings →
      getOr (written skips.ofConfig (config.fields skips)) key (.text default_) = .text value :=
    fun member => getOr_textField skips.ofConfig distinct (mem_fields_of_settings skips member)
  have int_ : ∀ {key default_ value}, intField key default_ value ∈ config.settings →
      getOr (written skips.ofConfig (config.fields skips)) key (.scalar (.int default_)) = .scalar (.int value) :=
    fun member => getOr_intField skips.ofConfig distinct (mem_fields_of_settings skips member)
  rw [parseConfig, CronwatchConfig.toYaml, Yaml.orElse_dict]
  show ((Yaml.orElse (.list []) (getOr (written skips.ofConfig (config.fields skips)) "jobs" .none)).iterate >>= _) = _
  rw [jobs]
  show ((CronwatchConfig.jobDocuments skips.ofJob config.jobs).mapM parseJob >>= _) = _
  rw [parseJob_jobDocuments]
  show ((valueUnder "alert" (written skips.ofConfig (config.fields skips))).mapM parseAlert >>= _) = _
  rw [alert_toYaml]
  show Except.ok _ = Except.ok _
  rw [Except.ok.injEq, LoadedConfig.ofConfig, LoadedConfig.mk.injEq]
  refine ⟨rfl, rfl, text_ ?_, text_ ?_, int_ ?_, int_ ?_, int_ ?_, int_ ?_, int_ ?_, int_ ?_, text_ ?_,
    int_ ?_, int_ ?_⟩ <;> simp [CronwatchConfig.settings]

/-! ## Reading the configuration back -/

def LoadedJob.typed? (job : LoadedJob) : Option JobConfig := do
  return {
    name := ← text? job.name
    command := ← text? job.command
    schedule := ← text? job.schedule
    enabled := ← bool? job.enabled
    timeout := ← int? job.timeout
    tags := ← texts? job.tags
    labels := ← textDict? job.labels
    dependsOn := ← texts? job.dependsOn }

def LoadedAlert.typed? (alert : LoadedAlert) : Option AlertConfig := do
  return {
    type := ← text? alert.type
    recipients := ← texts? alert.recipients
    smtpHost := ← text? alert.smtpHost
    smtpPort := ← int? alert.smtpPort
    sender := ← text? alert.sender }

/-- The configuration, where every value has the type that its field declares. -/
def LoadedConfig.typed? (config : LoadedConfig) : Option CronwatchConfig := do
  return {
    jobs := ← config.jobs.mapM LoadedJob.typed?
    alert := ← config.alert.mapM LoadedAlert.typed?
    historyPath := ← text? config.historyPath
    auditPath := ← text? config.auditPath
    healthcheckPort := ← int? config.healthcheckPort
    metricsPort := ← int? config.metricsPort
    digestIntervalHours := ← int? config.digestIntervalHours
    notifyIntervalSeconds := ← int? config.notifyIntervalSeconds
    maxAlertsPerWindow := ← int? config.maxAlertsPerWindow
    alertWindowSeconds := ← int? config.alertWindowSeconds
    lockDir := ← text? config.lockDir
    retentionDays := ← int? config.retentionDays
    retentionMaxEntries := ← int? config.retentionMaxEntries }

theorem LoadedJob.typed?_ofConfig (job : JobConfig) : (ofConfig job).typed? = some job := by
  rw [ofConfig, typed?, Yaml.texts?_ofTexts, Yaml.texts?_ofTexts, Yaml.textDict?_ofTextDict]
  rfl

theorem LoadedAlert.typed?_ofConfig (alert : AlertConfig) : (ofConfig alert).typed? = some alert := by
  rw [ofConfig, typed?, Yaml.texts?_ofTexts]
  rfl

theorem LoadedConfig.typed?_ofConfig (config : CronwatchConfig) :
    (ofConfig config).typed? = some config := by
  have jobs : (config.jobs.map .ofConfig).mapM LoadedJob.typed? = some config.jobs := by
    induction config.jobs with
    | nil => rfl
    | cons job rest ih => rw [List.map_cons, List.mapM_cons, LoadedJob.typed?_ofConfig, ih]; rfl
  have alert : (config.alert.map .ofConfig).mapM LoadedAlert.typed? = some config.alert := by
    cases config.alert with
    | none => rfl
    | some alert => simp [LoadedAlert.typed?_ofConfig]
  rw [ofConfig, typed?, jobs, alert]
  rfl

/-- **What is written is loaded.**  Of the fields that have their default any may be left out;
the file then loads as the configuration it was written for. -/
theorem loadConfig_toYaml (fileExists : String → Bool) (safeLoad : String → Except PyException Yaml)
    (path : String) (skips : Skips) (config : CronwatchConfig)
    (exists_ : fileExists path = true) (document : safeLoad path = .ok (config.toYaml skips)) :
    ∃ loaded, loadConfig fileExists safeLoad path = .ok loaded ∧ loaded.typed? = some config := by
  refine ⟨.ofConfig config, ?_, LoadedConfig.typed?_ofConfig config⟩
  rw [loadConfig, if_pos exists_, document]
  exact parseConfig_toYaml skips config

def twoJobs : CronwatchConfig where
  jobs := [{ name := "backup", command := "backup.sh", schedule := "0 2 * * *", tags := ["nightly"] },
    { name := "report", command := "report.sh", schedule := "0 6 * * *", dependsOn := ["backup"] }]
  alert := some { type := "email", recipients := ["ops@example.com"] }
  metricsPort := 9091

/-- The first job has only the fields without a default value, the second one has its tags as
well; the alert has all fields, the configuration none with a default. -/
def someFields : Skips where
  ofJob i key := i = 0 || key != "tags"
  ofAlert _ := false
  ofConfig _ := true

theorem loadConfig_twoJobs :
    ∃ loaded, loadConfig (fun _ => true) (fun _ => .ok (twoJobs.toYaml someFields)) "cronwatch.yaml" =
      .ok loaded ∧ loaded.typed? = some twoJobs :=
  loadConfig_toYaml _ _ _ _ _ rfl rfl

end Cronwatch.Jobs
