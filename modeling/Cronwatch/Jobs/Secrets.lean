/-
# Jobs.Secrets -- values from the process environment

A job declares secrets as a dict from names to specifications, and four functions go
through them, each for itself: `secrets_for` parses, `missing_secrets` asks which cannot be
resolved, `resolve_secrets` resolves the others, and the injector merges these into an
environment.  A specification is what the YAML file has: `secrets_for` skips one that is
neither a text nor a dict, and takes any `env_var` out of a dict.

`accounted_iff`: every declared name is either missing or mapped exactly when each
specification is a text, or a dict whose `env_var` is one.
-/
import Cronwatch.Jobs.Executor
import Cronwatch.Runtime.Json

namespace Cronwatch.Jobs

set_option autoImplicit false

open Cronwatch.Theory Cronwatch.Runtime

structure SecretRef where
  envVar : PyValue
  default_ : PyValue := .none

/-- The attributes `name` and `secrets` of a job; `secrets` is missing here when it is no
dict. -/
structure SecretJob where
  name : Option String := none
  secrets : Option (Dict String PyValue) := none

/-- `os.environ`. -/
abbrev Environ := String → Option String

/-- `value is None`. -/
def isNone : PyValue → Bool
  | .none => true
  | _ => false

/-- `os.environ[key]`, where a key that is not there is no error. -/
def environItem (environ : Environ) : PyValue → Except PyException (Option String)
  | .str name => .ok (environ name)
  | key => .error (.typeError s!"str expected, not {key.typeName}")

namespace SecretRef

section Environ

variable (environ : Environ)

/-- The secret value; `none` stands for `None`. -/
def resolve (ref : SecretRef) : Except PyException (Option PyValue) := do
  match ← environItem environ ref.envVar with
  | some value => return some (.str value)
  | none => return if isNone ref.default_ then none else some ref.default_

def isAvailable (ref : SecretRef) : Except PyException Bool := do
  return (← environItem environ ref.envVar).isSome || !isNone ref.default_

end Environ

/-- The reference that a specification makes; most types make none. -/
def ofSpec : PyValue → Except PyException (Option SecretRef)
  | .dict spec =>
      match spec.lookup (.str "env_var") with
      | none => .error (keyError "env_var")
      | some envVar =>
          .ok (some { envVar, default_ := (spec.lookup (.str "default")).getD .none })
  | .str envVar => .ok (some { envVar := .str envVar })
  | _ => .ok none

end SecretRef

def secretsFor (job : SecretJob) : Except PyException (Dict String SecretRef) :=
  (job.secrets.getD .empty).filterMapM fun _ spec => SecretRef.ofSpec spec

section Environ

variable (environ : Environ)

def resolveSecrets (job : SecretJob) : Except PyException (Dict String PyValue) := do
  (← secretsFor job).filterMapM fun _ ref => ref.resolve environ

def missingSecrets (job : SecretJob) : Except PyException (List String) := do
  let missing ← (← secretsFor job).filterMapM fun _ ref => do
    return if ← ref.isAvailable environ then none else some ()
  return missing.keys

inductive InjectionError where
  | secretInjectionError (jobName : String) (missing : List String)
  | raised (e : PyException)

def InjectionError.message : InjectionError → String
  | .secretInjectionError jobName missing =>
      let names := ", ".intercalate missing
      s!"Job '{jobName}' is missing required secrets: {names}"
  | .raised e => Executor.strOfException e

/-- `{**base_env, **resolved}`. -/
def merged (baseEnv : Dict String String) (resolved : Dict String PyValue) : Dict String PyValue :=
  (baseEnv.mapEntries fun _ value => PyValue.str value).update resolved

def injectSecrets (job : SecretJob) (baseEnv : Dict String String) :
    Except InjectionError (Dict String PyValue) :=
  match missingSecrets environ job with
  | .error e => .error (.raised e)
  | .ok (name :: names) =>
      .error (.secretInjectionError (job.name.getD "<unknown>") (name :: names))
  | .ok [] =>
      match resolveSecrets environ job with
      | .error e => .error (.raised e)
      | .ok resolved => .ok (merged baseEnv resolved)

def safeInjectSecrets (job : SecretJob) (baseEnv : Dict String String) :
    Except PyException (Dict String PyValue × List String) := do
  let absent ← missingSecrets environ job
  let resolved ← resolveSecrets environ job
  return (merged baseEnv resolved, absent)

def hasAllSecrets (job : SecretJob) : Except PyException Bool := do
  return (← missingSecrets environ job).isEmpty

/-! ## What the functions should agree on -/

/-- What a specification stands for in this environment. -/
def valueOf (environ : Environ) : PyValue → Option PyValue
  | .str envVar => (environ envVar).map .str
  | .dict spec =>
      match spec.lookup (.str "env_var"), spec.lookup (.str "default") with
      | some (.str envVar), default_ =>
          match environ envVar with
          | some value => some (.str value)
          | none => default_.filter fun value => !isNone value
      | _, _ => none
  | _ => none

/-- **Every declared secret is accounted for**: it is either missing or mapped to its value,
and the other functions agree with that. -/
structure Accounted (job : SecretJob) (specs : Dict String PyValue)
    (baseEnv : Dict String String) : Prop where
  safe : ∃ env missing, safeInjectSecrets environ job baseEnv = .ok (env, missing) ∧
    (∀ name spec, specs.get? name = some spec →
      (name ∈ missing ↔ ¬ ∃ value, valueOf environ spec = some value ∧
        env.get? name = some value)) ∧
    (∀ env', injectSecrets environ job baseEnv = .ok env' ↔ missing = [] ∧ env' = env) ∧
    hasAllSecrets environ job = .ok missing.isEmpty

/-- A text, or a dict whose `env_var` is a text. -/
def NamesVariable : PyValue → Prop
  | .str _ => True
  | .dict spec => ∃ envVar, spec.lookup (.str "env_var") = some (.str envVar)
  | _ => False

end Environ

/-! ## One specification -/

section Accounts

variable {environ : Environ}

theorem namesVariable_iff (spec : PyValue) :
    NamesVariable spec ↔ ∃ ref envVar, SecretRef.ofSpec spec = .ok (some ref) ∧
      ref.envVar = .str envVar := by
  cases spec with
  | str envVar => exact iff_of_true trivial ⟨_, envVar, rfl, rfl⟩
  | dict spec =>
      rw [NamesVariable, SecretRef.ofSpec]
      cases spec.lookup (.str "env_var") with
      | none => simp
      | some envVar => simp
  | none | bool _ | number _ | list _ | tuple _ | other _ => simp [NamesVariable, SecretRef.ofSpec]

/-- A reference to a variable is resolved to what its specification stands for, and is
available when there is that. -/
theorem resolve_of_spec {spec : PyValue} {ref : SecretRef} {envVar : String}
    (parsed : SecretRef.ofSpec spec = .ok (some ref)) (text : ref.envVar = .str envVar) :
    ref.resolve environ = .ok (valueOf environ spec) ∧
      ref.isAvailable environ = .ok (valueOf environ spec).isSome := by
  cases spec with
  | str _ =>
      cases parsed
      cases text
      rw [SecretRef.resolve, SecretRef.isAvailable, environItem, valueOf]
      cases environ envVar with
      | none => exact ⟨rfl, rfl⟩
      | some value => exact ⟨rfl, rfl⟩
  | dict spec =>
      rw [SecretRef.ofSpec] at parsed
      cases named : spec.lookup (.str "env_var") with
      | none =>
          rw [named] at parsed
          cases parsed
      | some _ =>
          rw [named] at parsed
          cases parsed
          cases text
          rw [SecretRef.resolve, SecretRef.isAvailable, environItem, valueOf, named]
          dsimp only
          cases environ envVar with
          | some value => exact ⟨rfl, rfl⟩
          | none =>
              cases spec.lookup (.str "default") with
              | none => exact ⟨rfl, rfl⟩
              | some value => cases value <;> exact ⟨rfl, rfl⟩
  | none | bool _ | number _ | list _ | tuple _ | other _ => cases parsed

/-- A reference to anything else cannot be looked up. -/
theorem text_of_isAvailable {ref : SecretRef} {available : Bool}
    (returned : ref.isAvailable environ = .ok available) : ∃ envVar, ref.envVar = .str envVar := by
  obtain ⟨found, looked, -⟩ := returned_of_bind returned
  obtain ⟨envVar, default_⟩ := ref
  cases envVar with
  | str envVar => exact ⟨envVar, rfl⟩
  | none | bool _ | number _ | list _ | tuple _ | dict _ | other _ => cases looked

/-! ## All of them -/

variable {job : SecretJob} {specs : Dict String PyValue}

theorem get?_secretsFor (declared : job.secrets = some specs) {refs : Dict String SecretRef}
    (returned : secretsFor job = .ok refs) (name : String) (ref : SecretRef) :
    refs.get? name = some ref ↔
      ∃ spec, specs.get? name = some spec ∧ SecretRef.ofSpec spec = .ok (some ref) := by
  rw [secretsFor, declared, Option.getD_some] at returned
  exact Dict.get?_filterMapM returned name ref

/-- The test of `missing_secrets` on one reference. -/
def missing? (environ : Environ) (ref : SecretRef) : Except PyException (Option Unit) := do
  return if ← ref.isAvailable environ then none else some ()

theorem missing?_eq {ref : SecretRef} {available : Bool}
    (answered : ref.isAvailable environ = .ok available) :
    missing? environ ref = .ok (if available then none else some ()) := by
  rw [missing?, answered]
  rfl

/-- The references are made, and each is asked for. -/
theorem missingSecrets_eq_ok_iff (missing : List String) :
    missingSecrets environ job = .ok missing ↔ ∃ refs tested, secretsFor job = .ok refs ∧
      refs.filterMapM (fun _ ref => missing? environ ref) = .ok tested ∧
        tested.keys = missing := by
  constructor
  · intro asked
    obtain ⟨refs, parsed, asked⟩ := returned_of_bind asked
    obtain ⟨tested, tests, done⟩ := returned_of_bind asked
    exact ⟨refs, tested, parsed, tests, Except.ok.inj done⟩
  · rintro ⟨refs, tested, parsed, tests, rfl⟩
    rw [missingSecrets, parsed]
    show (refs.filterMapM fun _ ref => missing? environ ref) >>= _ = _
    rw [tests]
    rfl

theorem resolveSecrets_eq {refs : Dict String SecretRef} (returned : secretsFor job = .ok refs) :
    resolveSecrets environ job = refs.filterMapM fun _ ref => ref.resolve environ := by
  rw [resolveSecrets, returned]
  rfl

/-- The references of a well declared job: each is to a variable, and gives the value that
its specification stands for. -/
theorem secretsFor_of_named (environ : Environ) (declared : job.secrets = some specs)
    (named : ∀ name spec, specs.get? name = some spec → NamesVariable spec) :
    ∃ refs, secretsFor job = .ok refs ∧
      (∀ name, (refs.get? name).isSome = (specs.get? name).isSome) ∧
        ∀ name ref, refs.get? name = some ref → ∃ spec, specs.get? name = some spec ∧
          ref.resolve environ = .ok (valueOf environ spec) ∧
            ref.isAvailable environ = .ok (valueOf environ spec).isSome := by
  obtain ⟨refs, parsed⟩ : ∃ refs, secretsFor job = .ok refs := by
    rw [secretsFor, declared, Option.getD_some, Dict.filterMapM_returns_iff]
    intro name spec held
    obtain ⟨ref, -, made, -⟩ := (namesVariable_iff spec).mp (named name spec held)
    exact ⟨_, made⟩
  have inRefs := get?_secretsFor declared parsed
  refine ⟨refs, parsed, fun name => Bool.eq_iff_iff.mpr ?_, fun name ref held => ?_⟩
  · rw [Option.isSome_iff_exists, Option.isSome_iff_exists]
    constructor
    · rintro ⟨ref, held⟩
      obtain ⟨spec, held', -⟩ := (inRefs name ref).mp held
      exact ⟨spec, held'⟩
    · rintro ⟨spec, held⟩
      obtain ⟨ref, -, made, -⟩ := (namesVariable_iff spec).mp (named name spec held)
      exact ⟨ref, (inRefs name ref).mpr ⟨spec, held, made⟩⟩
  · obtain ⟨spec, held', made⟩ := (inRefs name ref).mp held
    obtain ⟨ref', envVar, made', text⟩ := (namesVariable_iff spec).mp (named name spec held')
    rw [made] at made'
    cases made'
    exact ⟨spec, held', resolve_of_spec made text⟩

/-- **The functions on a well declared job**: what is missing, and what is resolved. -/
theorem classified (job : SecretJob) (declared : job.secrets = some specs)
    (named : ∀ name spec, specs.get? name = some spec → NamesVariable spec) :
    ∃ missing resolved, missingSecrets environ job = .ok missing ∧
      resolveSecrets environ job = .ok resolved ∧
      ∀ name spec, specs.get? name = some spec →
        (name ∈ missing ↔ valueOf environ spec = none) ∧
          resolved.get? name = valueOf environ spec := by
  obtain ⟨refs, parsed, names, answers⟩ := secretsFor_of_named environ declared named
  obtain ⟨resolved, resolves⟩ : ∃ resolved,
      refs.filterMapM (fun _ ref => ref.resolve environ) = .ok resolved := by
    rw [Dict.filterMapM_returns_iff]
    intro name ref held
    obtain ⟨spec, -, resolved, -⟩ := answers name ref held
    exact ⟨_, resolved⟩
  obtain ⟨missing, asks⟩ : ∃ missing,
      refs.filterMapM (fun _ ref => missing? environ ref) = .ok missing := by
    rw [Dict.filterMapM_returns_iff]
    intro name ref held
    obtain ⟨spec, -, -, available⟩ := answers name ref held
    exact ⟨_, missing?_eq available⟩
  refine ⟨missing.keys, resolved, (missingSecrets_eq_ok_iff _).mpr ⟨refs, missing, parsed, asks, rfl⟩,
    by rw [resolveSecrets_eq parsed, resolves], fun name spec held => ?_⟩
  obtain ⟨ref, inRefs⟩ := Option.isSome_iff_exists.mp ((names name).trans (by rw [held]; rfl))
  obtain ⟨spec', held', resolves_, available⟩ := answers name ref inRefs
  rw [held] at held'
  cases held'
  constructor
  · rw [Dict.mem_keys_iff, Option.isSome_iff_exists]
    simp only [Dict.get?_filterMapM asks, inRefs]
    have asked := missing?_eq available
    cases value : valueOf environ spec with
    | none =>
        rw [value] at asked
        exact iff_of_true ⟨(), ref, rfl, asked⟩ rfl
    | some v =>
        rw [value] at asked
        refine iff_of_false ?_ (by simp)
        rintro ⟨_, ref', same, held'⟩
        cases same
        rw [asked] at held'
        cases held'
  · rw [Option.ext_iff]
    intro v
    rw [Dict.get?_filterMapM resolves, inRefs]
    simp [resolves_]

theorem get?_merged (baseEnv : Dict String String) (resolved : Dict String PyValue) (name : String) :
    (merged baseEnv resolved).get? name =
      (resolved.get? name).or ((baseEnv.get? name).map .str) := by
  rw [merged, Dict.get?_update, Dict.get?_mapEntries]

/-- What `missing_secrets` has gone through: every specification was parsed, and every
reference made from one is to a variable. -/
theorem parsed_of_missingSecrets (declared : job.secrets = some specs) {missing : List String}
    (asked : missingSecrets environ job = .ok missing) {name : String} {spec : PyValue}
    (held : specs.get? name = some spec) :
    NamesVariable spec ∨ (SecretRef.ofSpec spec = .ok none ∧ name ∉ missing) := by
  obtain ⟨refs, tested, parsed, tests, rfl⟩ := (missingSecrets_eq_ok_iff missing).mp asked
  have inRefs := get?_secretsFor declared parsed
  rw [secretsFor, declared, Option.getD_some] at parsed
  obtain ⟨made, parse⟩ := (Dict.filterMapM_returns_iff _ _).mp ⟨refs, parsed⟩ name spec held
  cases made with
  | some ref =>
      left
      have held' : refs.get? name = some ref := (inRefs name ref).mpr ⟨spec, held, parse⟩
      obtain ⟨_, test⟩ := (Dict.filterMapM_returns_iff _ _).mp ⟨tested, tests⟩ name ref held'
      obtain ⟨_, available, -⟩ := returned_of_bind test
      obtain ⟨envVar, text⟩ := text_of_isAvailable available
      exact (namesVariable_iff spec).mpr ⟨ref, envVar, parse, text⟩
  | none =>
      refine .inr ⟨parse, ?_⟩
      rw [Dict.mem_keys_iff, Option.isSome_iff_exists]
      rintro ⟨_, member⟩
      obtain ⟨ref, held', -⟩ := (Dict.get?_filterMapM tests name _).mp member
      obtain ⟨spec', held'', made⟩ := (inRefs name ref).mp held'
      rw [held] at held''
      cases held''
      rw [parse] at made
      cases made

/-- A specification that is skipped stands for no value. -/
theorem valueOf_of_skipped {spec : PyValue} (skipped : SecretRef.ofSpec spec = .ok none) :
    valueOf environ spec = none := by
  cases spec with
  | str _ => cases skipped
  | dict spec =>
      rw [SecretRef.ofSpec] at skipped
      cases named : spec.lookup (.str "env_var") with
      | none => rw [named] at skipped; cases skipped
      | some _ => rw [named] at skipped; cases skipped
  | none | bool _ | number _ | list _ | tuple _ | other _ => rfl

end Accounts

/-- **When every declared secret is accounted for**: when each specification names a
variable. -/
theorem accounted_iff (environ : Environ) (jobName : Option String) (specs : Dict String PyValue)
    (baseEnv : Dict String String) :
    Accounted environ { name := jobName, secrets := some specs } specs baseEnv ↔
      ∀ name spec, specs.get? name = some spec → NamesVariable spec := by
  constructor
  · rintro ⟨env, missing, safe, accounts, -, -⟩ name spec held
    obtain ⟨absent, asked, rest⟩ := returned_of_bind safe
    obtain ⟨resolved, -, done⟩ := returned_of_bind rest
    cases done
    obtain named | ⟨skipped, notMissing⟩ := parsed_of_missingSecrets rfl asked held
    · exact named
    -- a skipped name is not mapped to a value of its own, and should be missing
    · refine absurd ((accounts name spec held).mpr ?_) notMissing
      rintro ⟨value, stands, -⟩
      rw [valueOf_of_skipped skipped] at stands
      cases stands
  · intro named
    obtain ⟨missing, resolved, asked, resolves, classes⟩ := classified
      { name := jobName, secrets := some specs } rfl named
    refine ⟨merged baseEnv resolved, missing, ?_, ?_, ?_, ?_⟩
    · rw [safeInjectSecrets, asked, resolves]
      rfl
    · intro name spec held
      obtain ⟨missing_iff, mapped⟩ := classes name spec held
      rw [missing_iff, get?_merged, mapped]
      cases valueOf environ spec with
      | none => simp
      | some value => simp
    · intro env'
      rw [injectSecrets, asked, resolves]
      cases missing with
      | nil => simp [eq_comm]
      | cons _ _ => simp
    · rw [hasAllSecrets, asked]
      rfl

/-- A list is skipped: the job has all of its secrets, and no value for this one.  A dict that
names no variable makes the function raise that never does. -/
theorem listed_unaccounted :
    let listed := Dict.empty.set "TOKEN" (.list [.str "API_TOKEN"])
    let unnamed := Dict.empty.set "TOKEN" (.dict [])
    safeInjectSecrets (fun _ => none) { secrets := some listed } .empty = .ok (.empty, []) ∧
      hasAllSecrets (fun _ => none) { secrets := some listed } = .ok true ∧
      ¬ Accounted (fun _ => none) { secrets := some listed } listed .empty ∧
      safeInjectSecrets (fun _ => none) { secrets := some unnamed } .empty =
        .error (keyError "env_var") := by
  refine ⟨rfl, rfl, ?_, rfl⟩
  rintro ⟨env, missing, safe, accounts, -, -⟩
  cases safe
  have := (accounts "TOKEN" _ rfl).mpr (by rintro ⟨value, stands, -⟩; cases stands)
  cases this

end Cronwatch.Jobs
