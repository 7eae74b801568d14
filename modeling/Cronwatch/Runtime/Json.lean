/-
# Runtime.Json -- Python values, and what the module `json` makes of them

`dump` is `json.dump`: it writes the tokens of a value one after the other, and stops at
the first value or key that it cannot serialise, with everything before it written.
`ofJson` is what `json.load` makes of a text that was read.

A value comes back as it was exactly when it is `Native`, which lists are and tuples are
not, and dicts are whose keys are strings (`ofJson_eq_iff`).  What a `dump` that fails
has written is no JSON text, inside of whatever it stands (`dump_stops`).

A float is the text that the encoder prints for it.  Values that are equal but of another
type (an `IntEnum`, an `OrderedDict`) are taken as the plain ones.  Integers have any number of
digits here, and values any depth; the interpreter has a limit on each and raises beyond it.
-/
import Cronwatch.Runtime.Python
import Cronwatch.Theory.Dict
import Cronwatch.Theory.Json

namespace Cronwatch.Runtime

set_option autoImplicit false

open Cronwatch.Theory
open Cronwatch.Theory.Json (Value Token Frame State moreItems moreMembers run deliver)

inductive Number where
  | int (value : Int)
  | float (repr : String)
deriving DecidableEq

/-- A key of a dict. -/
inductive Key where
  | str (s : String)
  | number (n : Number)
  | bool (b : Bool)
  | none
  /-- A key of a type that JSON has no text for. -/
  | other (typeName : String)
deriving DecidableEq

inductive PyValue where
  | none
  | bool (b : Bool)
  | number (n : Number)
  | str (s : String)
  | list (items : List PyValue)
  | tuple (items : List PyValue)
  | dict (entries : List (Key × PyValue))
  /-- An object of a type that is not serialisable. -/
  | other (typeName : String)

def Number.text : Number → String
  | .int value => toString value
  | .float repr => repr

/-- A key as a value; one of a foreign type stays foreign. -/
def Key.value : Key → PyValue
  | .str s => .str s
  | .number n => .number n
  | .bool b => .bool b
  | .none => .none
  | .other typeName => .other typeName

/-- `value.__class__.__name__`. -/
def PyValue.typeName : PyValue → String
  | .none => "NoneType"
  | .bool _ => "bool"
  | .number (.int _) => "int"
  | .number (.float _) => "float"
  | .str _ => "str"
  | .list _ => "list"
  | .tuple _ => "tuple"
  | .dict _ => "dict"
  | .other typeName => typeName

/-- A key of `**entries`. -/
def Key.keyword : Key → Except PyException String
  | .str s => .ok s
  | _ => .error (.typeError "keywords must be strings")

/-- `KeyError(key)`. -/
def keyError (key : String) : PyException := .foreign s!"KeyError: '{key}'"

/-- `json.JSONDecodeError`, which is a `ValueError`.  Its message depends on what the text lacks and
where; one text stands for all of them. -/
def jsonDecodeError : PyException := .valueError "Expecting value"

/-- The member name that stands for a key. -/
def Key.name? : Key → Option String
  | .str s => some s
  | .number n => some n.text
  | .bool b => some (if b then "true" else "false")
  | .none => some "null"
  | .other _ => Option.none

/-! ## Writing -/

/-- What has been written, and the exception that ended the writing. -/
structure Written where
  tokens : List (Token Number)
  error : Option PyException := .none

/-- The one after the other, unless the first fails. -/
def Written.andThen (first second : Written) : Written :=
  match first.error with
  | some _ => first
  | Option.none => { tokens := first.tokens ++ second.tokens, error := second.error }

def notSerializable (typeName : String) : PyException :=
  .typeError s!"Object of type {typeName} is not JSON serializable"

def badKey (typeName : String) : PyException :=
  .typeError s!"keys must be str, int, float, bool or None, not {typeName}"

/-- A key with its colon, behind a separator. -/
def Key.dump (separator : List (Token Number)) (key : Key) : Written :=
  match key.name? with
  | some name => { tokens := separator ++ [.string name, .colon] }
  | Option.none => { tokens := [], error := some (badKey key.value.typeName) }

mutual

def PyValue.dump : PyValue → Written
  | .none => { tokens := [.null] }
  | .bool b => { tokens := [.bool b] }
  | .number n => { tokens := [.number n] }
  | .str s => { tokens := [.string s] }
  | .list [] | .tuple [] => { tokens := [.openArray, .closeArray] }
  | .list (v :: rest) | .tuple (v :: rest) =>
      Written.andThen { tokens := [.openArray] } (v.dump.andThen (dumpItems rest))
  | .dict [] => { tokens := [.openObject, .closeObject] }
  | .dict ((key, v) :: rest) =>
      Written.andThen { tokens := [.openObject] }
        ((key.dump []).andThen (v.dump.andThen (dumpMembers rest)))
  | .other typeName => { tokens := [], error := some (notSerializable typeName) }

/-- The items of a list after the first one. -/
def dumpItems : List PyValue → Written
  | [] => { tokens := [.closeArray] }
  | v :: rest => Written.andThen { tokens := [.comma] } (v.dump.andThen (dumpItems rest))

/-- The entries of a dict after the first one. -/
def dumpMembers : List (Key × PyValue) → Written
  | [] => { tokens := [.closeObject] }
  | (key, v) :: rest => (key.dump [.comma]).andThen (v.dump.andThen (dumpMembers rest))

end

/-! ## The value written -/

mutual

/-- The JSON value of a Python value, if it has one. -/
def PyValue.encode : PyValue → Option (Value Number)
  | .none => some .null
  | .bool b => some (.bool b)
  | .number n => some (.number n)
  | .str s => some (.string s)
  | .list items | .tuple items => (encodeItems items).map .array
  | .dict entries => (encodeMembers entries).map .object
  | .other _ => Option.none

def encodeItems : List PyValue → Option (List (Value Number))
  | [] => some []
  | v :: rest =>
      match v.encode, encodeItems rest with
      | some j, some js => some (j :: js)
      | _, _ => Option.none

def encodeMembers : List (Key × PyValue) → Option (List (String × Value Number))
  | [] => some []
  | (key, v) :: rest =>
      match key.name?, v.encode, encodeMembers rest with
      | some name, some j, some js => some ((name, j) :: js)
      | _, _, _ => Option.none

end

theorem encodeItems_cons {v : PyValue} {rest : List PyValue} {js : List (Value Number)}
    (encoded : encodeItems (v :: rest) = some js) :
    ∃ j more, v.encode = some j ∧ encodeItems rest = some more ∧ js = j :: more := by
  rw [encodeItems] at encoded
  split at encoded
  · rename_i j more first others
    cases encoded
    exact ⟨j, more, first, others, rfl⟩
  · cases encoded

theorem encodeMembers_cons {key : Key} {v : PyValue} {rest : List (Key × PyValue)}
    {js : List (String × Value Number)} (encoded : encodeMembers ((key, v) :: rest) = some js) :
    ∃ name j more, key.name? = some name ∧ v.encode = some j ∧ encodeMembers rest = some more ∧
      js = (name, j) :: more := by
  rw [encodeMembers] at encoded
  split at encoded
  · rename_i name j more named first others
    cases encoded
    exact ⟨name, j, more, named, first, others, rfl⟩
  · cases encoded

mutual

/-- **What is written** of a value that has a JSON value: the tokens of that. -/
theorem dump_of_encode : ∀ (v : PyValue) (j : Value Number), v.encode = some j →
    v.dump = { tokens := j.tokens }
  | .none, _, rfl => rfl
  | .bool _, _, rfl => rfl
  | .number _, _, rfl => rfl
  | .str _, _, rfl => rfl
  | .list [], _, rfl => rfl
  | .tuple [], _, rfl => rfl
  | .list (v :: rest), j, encoded => by
      obtain ⟨js, both, rfl⟩ := Option.map_eq_some_iff.mp encoded
      obtain ⟨first, more, encodedFirst, encodedRest, rfl⟩ := encodeItems_cons both
      have written := dump_of_encode v first encodedFirst
      have others := dumpItems_of_encode rest more encodedRest
      rw [PyValue.dump, written, others]
      rfl
  | .tuple (v :: rest), j, encoded => by
      obtain ⟨js, both, rfl⟩ := Option.map_eq_some_iff.mp encoded
      obtain ⟨first, more, encodedFirst, encodedRest, rfl⟩ := encodeItems_cons both
      have written := dump_of_encode v first encodedFirst
      have others := dumpItems_of_encode rest more encodedRest
      rw [PyValue.dump, written, others]
      rfl
  | .dict [], _, rfl => rfl
  | .dict ((key, v) :: rest), j, encoded => by
      obtain ⟨js, both, rfl⟩ := Option.map_eq_some_iff.mp encoded
      obtain ⟨name, first, more, named, encodedFirst, encodedRest, rfl⟩ := encodeMembers_cons both
      have written := dump_of_encode v first encodedFirst
      have others := dumpMembers_of_encode rest more encodedRest
      rw [PyValue.dump, Key.dump, named, written, others]
      rfl

theorem dumpItems_of_encode : ∀ (items : List PyValue) (js : List (Value Number)),
    encodeItems items = some js → dumpItems items = { tokens := moreItems js }
  | [], _, rfl => rfl
  | v :: rest, js, encoded => by
      obtain ⟨first, more, encodedFirst, encodedRest, rfl⟩ := encodeItems_cons encoded
      have written := dump_of_encode v first encodedFirst
      have others := dumpItems_of_encode rest more encodedRest
      rw [dumpItems, written, others]
      rfl

theorem dumpMembers_of_encode : ∀ (entries : List (Key × PyValue))
    (js : List (String × Value Number)), encodeMembers entries = some js →
      dumpMembers entries = { tokens := moreMembers js }
  | [], _, rfl => rfl
  | (key, v) :: rest, js, encoded => by
      obtain ⟨name, first, more, named, encodedFirst, encodedRest, rfl⟩ :=
        encodeMembers_cons encoded
      have written := dump_of_encode v first encodedFirst
      have others := dumpMembers_of_encode rest more encodedRest
      rw [dumpMembers, Key.dump, named, written, others]
      rfl

end

/-! ## Writing that fails -/

/-- What is written from the state on ends with an error, and leaves a text that is not
complete. -/
def Written.Stops (w : Written) (s : State Number) : Prop :=
  w.error ≠ Option.none ∧ ∃ s', run s w.tokens = some s' ∧ s'.Pending

theorem Written.Stops.andThen {first : Written} {s : State Number} (stops : first.Stops s)
    (second : Written) : (first.andThen second).Stops s := by
  obtain ⟨e, failed⟩ := Option.ne_none_iff_exists'.mp stops.1
  rw [Written.andThen, failed]
  exact stops

theorem Written.Stops.behind {second : Written} {s s' : State Number} {first : List (Token Number)}
    (passed : run s first = some s') (stops : second.Stops s') :
    (Written.andThen { tokens := first } second).Stops s := by
  obtain ⟨failed, s'', read, pending⟩ := stops
  refine ⟨failed, s'', ?_, pending⟩
  show run s (first ++ second.tokens) = some s''
  rw [Json.run_append, passed]
  exact read

/-- No value begins with a bracket that closes an array. -/
theorem dump_head (v : PyValue) : v.dump.tokens = [] ∨
    ∃ token rest, v.dump.tokens = token :: rest ∧ token ≠ .closeArray := by
  rcases v with _ | _ | _ | _ | ⟨_ | _⟩ | ⟨_ | _⟩ | ⟨_ | ⟨⟨_, _⟩, _⟩⟩ | _
  all_goals
    first
      | exact .inl rfl
      | exact .inr ⟨_, _, rfl, by simp⟩

theorem Written.Stops.firstItem {v : PyValue} {stack : List (Frame Number)}
    (stops : v.dump.Stops (.value (.array [] :: stack))) : v.dump.Stops (.firstItem stack) := by
  obtain ⟨failed, s', read, pending⟩ := stops
  rcases dump_head v with empty | ⟨token, rest, begins, opens⟩
  · exact ⟨failed, .firstItem stack, by rw [empty]; rfl, trivial⟩
  · refine ⟨failed, s', ?_, pending⟩
    rw [begins] at read ⊢
    rw [← read, run, run]
    cases token with
    | closeArray => exact absurd rfl opens
    | _ => rfl

/-- The tokens of a value, in a state that waits for one. -/
theorem run_value (j : Value Number) (stack : List (Frame Number)) :
    run (.value stack) j.tokens = some (deliver j stack) := by
  have read := Json.run_tokens j stack []
  rw [List.append_nil] at read
  exact read

theorem run_first (j : Value Number) (stack : List (Frame Number)) :
    run (.firstItem stack) j.tokens = some (.afterItem [j] stack) := by
  have read := Json.run_firstItem j stack []
  rw [List.append_nil] at read
  exact read.trans (run_value j (.array [] :: stack))

theorem encodeItems_fails {v : PyValue} {rest : List PyValue}
    (failed : encodeItems (v :: rest) = Option.none) :
    v.encode = Option.none ∨ ∃ j, v.encode = some j ∧ encodeItems rest = Option.none := by
  rw [encodeItems] at failed
  cases first : v.encode with
  | none => exact .inl rfl
  | some j =>
      cases others : encodeItems rest with
      | none => exact .inr ⟨j, rfl, rfl⟩
      | some js =>
          rw [first, others] at failed
          cases failed

theorem encodeMembers_fails {key : Key} {v : PyValue} {rest : List (Key × PyValue)}
    (failed : encodeMembers ((key, v) :: rest) = Option.none) :
    key.name? = Option.none ∨ ∃ name, key.name? = some name ∧
      (v.encode = Option.none ∨ ∃ j, v.encode = some j ∧ encodeMembers rest = Option.none) := by
  rw [encodeMembers] at failed
  cases named : key.name? with
  | none => exact .inl rfl
  | some name =>
      refine .inr ⟨name, rfl, ?_⟩
      cases first : v.encode with
      | none => exact .inl rfl
      | some j =>
          cases others : encodeMembers rest with
          | none => exact .inr ⟨j, rfl, rfl⟩
          | some js =>
              rw [named, first, others] at failed
              cases failed

theorem Key.dump_of_name {key : Key} {name : String} (named : key.name? = some name)
    (separator : List (Token Number)) :
    key.dump separator = { tokens := separator ++ [.string name, .colon] } := by
  rw [Key.dump, named]

theorem Key.dump_stops {key : Key} (unnamed : key.name? = Option.none)
    (separator : List (Token Number)) {s : State Number} (pending : s.Pending) :
    (key.dump separator).Stops s := by
  rw [Key.dump, unnamed]
  exact ⟨by simp, s, rfl, pending⟩

/-- A list or a tuple, when its first item and the others do so. -/
theorem sequence_stops {v : PyValue} {rest : List PyValue}
    (one : v.encode = Option.none → ∀ stack, v.dump.Stops (.value stack))
    (more : encodeItems rest = Option.none → ∀ done stack,
      (dumpItems rest).Stops (.afterItem done stack))
    (failed : encodeItems (v :: rest) = Option.none) (stack : List (Frame Number)) :
    (Written.andThen { tokens := [.openArray] } (v.dump.andThen (dumpItems rest))).Stops
      (.value stack) := by
  have opened : run (.value stack) [.openArray] = some (.firstItem stack) := rfl
  refine Written.Stops.behind opened ?_
  rcases encodeItems_fails failed with first | ⟨j, first, others⟩
  · exact (one first _).firstItem.andThen _
  · rw [dump_of_encode v j first]
    exact Written.Stops.behind (run_first j stack) (more others [j] stack)

mutual

/-- **Writing that fails** leaves a text that is not complete, wherever the value stands. -/
theorem dump_stops : ∀ (v : PyValue), v.encode = Option.none → ∀ stack,
    v.dump.Stops (.value stack)
  | .other _, _, stack => ⟨by simp [PyValue.dump], .value stack, rfl, trivial⟩
  | .list (v :: rest), failed, stack =>
      sequence_stops (dump_stops v) (dumpItems_stops rest) (Option.map_eq_none_iff.mp failed) stack
  | .tuple (v :: rest), failed, stack =>
      sequence_stops (dump_stops v) (dumpItems_stops rest) (Option.map_eq_none_iff.mp failed) stack
  | .dict ((key, v) :: rest), failed, stack => by
      have opened : run (.value stack) [.openObject] = some (.firstKey stack) := rfl
      refine Written.Stops.behind opened ?_
      rcases encodeMembers_fails (Option.map_eq_none_iff.mp failed) with unnamed | ⟨name, named, rest_⟩
      · have waiting : (State.firstKey stack : State Number).Pending := trivial
        exact (Key.dump_stops unnamed [] waiting).andThen _
      · have keyed : run (.firstKey stack) [.string name, .colon] =
            some (.value (.member [] name :: stack)) := rfl
        rw [Key.dump_of_name named]
        refine Written.Stops.behind keyed ?_
        rcases rest_ with first | ⟨j, first, others⟩
        · exact (dump_stops v first _).andThen _
        · rw [dump_of_encode v j first]
          exact Written.Stops.behind (run_value j _) (dumpMembers_stops rest others [(name, j)] stack)

theorem dumpItems_stops : ∀ (items : List PyValue), encodeItems items = Option.none →
    ∀ done stack, (dumpItems items).Stops (.afterItem done stack)
  | v :: rest, failed, done, stack => by
      have separated : run (.afterItem done stack) [.comma] =
          some (.value (.array done :: stack)) := rfl
      refine Written.Stops.behind separated ?_
      rcases encodeItems_fails failed with first | ⟨j, first, others⟩
      · exact (dump_stops v first _).andThen _
      · rw [dump_of_encode v j first]
        exact Written.Stops.behind (run_value j _) (dumpItems_stops rest others (done ++ [j]) stack)

theorem dumpMembers_stops : ∀ (entries : List (Key × PyValue)),
    encodeMembers entries = Option.none →
    ∀ done stack, (dumpMembers entries).Stops (.afterMember done stack)
  | (key, v) :: rest, failed, done, stack => by
      rw [dumpMembers]
      rcases encodeMembers_fails failed with unnamed | ⟨name, named, rest_⟩
      · have waiting : (State.afterMember done stack : State Number).Pending := trivial
        exact (Key.dump_stops unnamed [.comma] waiting).andThen _
      · have keyed : run (.afterMember done stack) [.comma, .string name, .colon] =
            some (.value (.member done name :: stack)) := rfl
        rw [Key.dump_of_name named]
        refine Written.Stops.behind keyed ?_
        rcases rest_ with first | ⟨j, first, others⟩
        · exact (dump_stops v first _).andThen _
        · rw [dump_of_encode v j first]
          exact Written.Stops.behind (run_value j _)
            (dumpMembers_stops rest others (done ++ [(name, j)]) stack)

end

/-! ## Reading -/

mutual

/-- What `json.load` makes of a JSON value; of members of one name the last one counts. -/
def ofJson : Value Number → PyValue
  | .null => .none
  | .bool b => .bool b
  | .number n => .number n
  | .string s => .str s
  | .array items => .list (ofItems items)
  | .object members => .dict (ofMembers [] members)

def ofItems : List (Value Number) → List PyValue
  | [] => []
  | j :: rest => ofJson j :: ofItems rest

def ofMembers (entries : List (Key × PyValue)) :
    List (String × Value Number) → List (Key × PyValue)
  | [] => entries
  | (name, j) :: rest => ofMembers (Dict.assign (.str name) (ofJson j) entries) rest

end

mutual

/-- A value of the types that JSON has: no tuple, and in dicts only strings as keys. -/
def PyValue.Native : PyValue → Prop
  | .none | .bool _ | .number _ | .str _ => True
  | .list items => NativeItems items
  | .dict entries => NativeMembers entries ∧ (entries.map Prod.fst).Nodup
  | .tuple _ | .other _ => False

def NativeItems : List PyValue → Prop
  | [] => True
  | v :: rest => v.Native ∧ NativeItems rest

def NativeMembers : List (Key × PyValue) → Prop
  | [] => True
  | (key, v) :: rest => (∃ name, key = .str name) ∧ v.Native ∧ NativeMembers rest

end

/-! ## What comes back -/

theorem NativeMembers.assign {name : String} {v : PyValue} (native : v.Native) :
    ∀ {entries : List (Key × PyValue)}, NativeMembers entries →
      NativeMembers (Dict.assign (.str name) v entries)
  | [], _ => ⟨⟨name, rfl⟩, native, trivial⟩
  | (key, v') :: rest, ⟨named, held, others⟩ => by
      rw [Dict.assign]
      split
      · exact ⟨⟨name, rfl⟩, native, others⟩
      · exact ⟨named, held, NativeMembers.assign native others⟩

theorem NativeMembers.lookup {entries : List (Key × PyValue)} (native : NativeMembers entries)
    (key : Key) : ((entries.lookup key).getD .none).Native := by
  induction entries with
  | nil => exact trivial
  | cons e rest ih =>
      obtain ⟨held, v⟩ := e
      obtain ⟨-, here, others⟩ := native
      rw [Dict.lookup_cons_eq]
      split
      · exact here
      · exact ih others

mutual

/-- What is read is native. -/
theorem native_ofJson : ∀ j : Value Number, (ofJson j).Native
  | .null => trivial
  | .bool _ => trivial
  | .number _ => trivial
  | .string _ => trivial
  | .array items => native_ofItems items
  | .object members => native_ofMembers members [] ⟨trivial, List.nodup_nil⟩

theorem native_ofItems : ∀ items : List (Value Number), NativeItems (ofItems items)
  | [] => trivial
  | j :: rest => ⟨native_ofJson j, native_ofItems rest⟩

theorem native_ofMembers : ∀ (members : List (String × Value Number))
    (entries : List (Key × PyValue)), (PyValue.dict entries).Native →
      (PyValue.dict (ofMembers entries members)).Native
  | [], _, held => held
  | (name, j) :: rest, entries, held =>
      native_ofMembers rest (Dict.assign (.str name) (ofJson j) entries)
        ⟨held.1.assign (native_ofJson j), Dict.nodup_assign _ _ _ held.2⟩

end

mutual

/-- A native value has a JSON value that is read back as itself. -/
theorem native_returns : ∀ v : PyValue, v.Native → ∃ j, v.encode = some j ∧ ofJson j = v
  | .none, _ => ⟨.null, rfl, rfl⟩
  | .bool b, _ => ⟨.bool b, rfl, rfl⟩
  | .number n, _ => ⟨.number n, rfl, rfl⟩
  | .str s, _ => ⟨.string s, rfl, rfl⟩
  | .list items, native => by
      obtain ⟨js, encoded, read⟩ := nativeItems_return items native
      refine ⟨.array js, ?_, congrArg PyValue.list read⟩
      rw [PyValue.encode, encoded]
      rfl
  | .dict entries, native => by
      obtain ⟨js, encoded, read⟩ := nativeMembers_return entries native.1
      refine ⟨.object js, ?_, congrArg PyValue.dict (read [] native.2)⟩
      rw [PyValue.encode, encoded]
      rfl

theorem nativeItems_return : ∀ items : List PyValue, NativeItems items →
    ∃ js, encodeItems items = some js ∧ ofItems js = items
  | [], _ => ⟨[], rfl, rfl⟩
  | v :: rest, native => by
      obtain ⟨j, encoded, read⟩ := native_returns v native.1
      obtain ⟨js, others, readOthers⟩ := nativeItems_return rest native.2
      refine ⟨j :: js, ?_, ?_⟩
      · rw [encodeItems, encoded, others]
      · rw [ofItems, read, readOthers]

theorem nativeMembers_return : ∀ entries : List (Key × PyValue), NativeMembers entries →
    ∃ js, encodeMembers entries = some js ∧
      ∀ held, ((held ++ entries).map Prod.fst).Nodup → ofMembers held js = held ++ entries
  | [], _ => ⟨[], rfl, fun held _ => (List.append_nil held).symm⟩
  | (key, v) :: rest, native => by
      obtain ⟨⟨name, rfl⟩, nativeFirst, nativeRest⟩ := native
      obtain ⟨j, encoded, read⟩ := native_returns v nativeFirst
      obtain ⟨js, others, readOthers⟩ := nativeMembers_return rest nativeRest
      refine ⟨(name, j) :: js, ?_, fun held nodup => ?_⟩
      · rw [encodeMembers, Key.name?, encoded, others]
      · have added := Dict.assign_of_nodup nodup
        rw [List.append_cons] at nodup ⊢
        rw [ofMembers, read, added]
        exact readOthers _ nodup

end

/-- **Which values come back as they were**: the native ones. -/
theorem ofJson_eq_iff {v : PyValue} {j : Value Number} (encoded : v.encode = some j) :
    ofJson j = v ↔ v.Native := by
  constructor
  · rintro rfl
    exact native_ofJson j
  · intro native
    obtain ⟨j', encoded', read⟩ := native_returns v native
    rw [encoded] at encoded'
    cases encoded'
    exact read

/-- **A native value** is written to the end, as a text that is read back as the value. -/
theorem native_roundTrip {v : PyValue} (native : v.Native) :
    v.dump.error = Option.none ∧ ∃ j, Json.parse v.dump.tokens = some j ∧ ofJson j = v := by
  obtain ⟨j, encoded, read⟩ := native_returns v native
  rw [dump_of_encode v j encoded]
  exact ⟨rfl, j, Json.parse_tokens j, read⟩

/-- Members under distinct names, each native. -/
theorem native_members {ν : Type} {entries : List (String × ν)} (value : ν → PyValue)
    (each : ∀ e ∈ entries, (value e.2).Native) (distinct : (entries.map Prod.fst).Nodup) :
    (PyValue.dict (entries.map fun e => (.str e.1, value e.2))).Native := by
  constructor
  · induction entries with
    | nil => exact trivial
    | cons e rest ih =>
        rw [List.forall_mem_cons] at each
        exact ⟨⟨e.1, rfl⟩, each.1, ih each.2 (List.nodup_cons.mp distinct).2⟩
  · have keys : (entries.map fun e => (Key.str e.1, value e.2)).map Prod.fst =
        (entries.map Prod.fst).map Key.str := by
      simp
    rw [keys]
    exact distinct.map fun _ _ same => Key.str.inj same

/-! ## One item more -/

theorem encodeItems_append {items : List PyValue} {js : List (Value Number)}
    (encoded : encodeItems items = some js) (v : PyValue) :
    encodeItems (items ++ [v]) = v.encode.map fun j => js ++ [j] := by
  induction items generalizing js with
  | nil =>
      cases encoded
      rw [List.nil_append, encodeItems]
      cases v.encode <;> rfl
  | cons first rest ih =>
      obtain ⟨j, more, encodedFirst, encodedRest, rfl⟩ := encodeItems_cons encoded
      rw [List.cons_append, encodeItems, encodedFirst, ih encodedRest]
      cases v.encode <;> rfl

theorem ofItems_append (js : List (Value Number)) (j : Value Number) :
    ofItems (js ++ [j]) = ofItems js ++ [ofJson j] := by
  induction js with
  | nil => rfl
  | cons first rest ih => rw [List.cons_append, ofItems, ih, ofItems, List.cons_append]

end Cronwatch.Runtime
