/-
# Theory.Json -- JSON texts as lists of tokens

A `Value` with numbers of any type is printed as a list of tokens (`tokens`) and read back
by a machine with a stack that takes one token at a time (`step`).  What the machine has
read so far is its state: `finished` says that a whole value was read, every other state
that the text is not complete.

* `run_tokens`: in a state that waits for a value, the tokens of a value do what its
  `deliver`y does, whatever follows.
* `parse_tokens`: a printed value reads back as itself.
* `parse_of_pending`: a text that leaves the machine in a state other than `finished` is
  not read.

The characters of a token, and the blanks between tokens, are left to the lexer.
-/

namespace Cronwatch.Theory.Json

set_option autoImplicit false

universe u

inductive Value (ν : Type u) where
  | null
  | bool (b : Bool)
  | number (n : ν)
  | string (s : String)
  | array (items : List (Value ν))
  | object (members : List (String × Value ν))

inductive Token (ν : Type u) where
  | null
  | bool (b : Bool)
  | number (n : ν)
  | string (s : String)
  | openArray
  | closeArray
  | openObject
  | closeObject
  | comma
  | colon
deriving DecidableEq

variable {ν : Type u}

/-! ## Printing -/

mutual

def Value.tokens : Value ν → List (Token ν)
  | .null => [.null]
  | .bool b => [.bool b]
  | .number n => [.number n]
  | .string s => [.string s]
  | .array [] => [.openArray, .closeArray]
  | .array (v :: rest) => .openArray :: (v.tokens ++ moreItems rest)
  | .object [] => [.openObject, .closeObject]
  | .object ((key, v) :: rest) =>
      .openObject :: .string key :: .colon :: (v.tokens ++ moreMembers rest)

/-- The items of an array after the first one. -/
def moreItems : List (Value ν) → List (Token ν)
  | [] => [.closeArray]
  | v :: rest => .comma :: (v.tokens ++ moreItems rest)

/-- The members of an object after the first one. -/
def moreMembers : List (String × Value ν) → List (Token ν)
  | [] => [.closeObject]
  | (key, v) :: rest => .comma :: .string key :: .colon :: (v.tokens ++ moreMembers rest)

end

/-! ## Reading -/

/-- An array or an object that is being read, up to the value that it waits for. -/
inductive Frame (ν : Type u) where
  | array (done : List (Value ν))
  | member (done : List (String × Value ν)) (key : String)

/-- What may come next, inside the frames of the stack. -/
inductive State (ν : Type u) where
  | value (stack : List (Frame ν))
  | firstItem (stack : List (Frame ν))
  | afterItem (done : List (Value ν)) (stack : List (Frame ν))
  | firstKey (stack : List (Frame ν))
  | key (done : List (String × Value ν)) (stack : List (Frame ν))
  | colon (done : List (String × Value ν)) (key : String) (stack : List (Frame ν))
  | afterMember (done : List (String × Value ν)) (stack : List (Frame ν))
  | finished (v : Value ν)

/-- A value has been read to its end. -/
def deliver (v : Value ν) : List (Frame ν) → State ν
  | [] => .finished v
  | .array done :: stack => .afterItem (done ++ [v]) stack
  | .member done key :: stack => .afterMember (done ++ [(key, v)]) stack

/-- The first token of a value. -/
def start (stack : List (Frame ν)) : Token ν → Option (State ν)
  | .null => some (deliver .null stack)
  | .bool b => some (deliver (.bool b) stack)
  | .number n => some (deliver (.number n) stack)
  | .string s => some (deliver (.string s) stack)
  | .openArray => some (.firstItem stack)
  | .openObject => some (.firstKey stack)
  | _ => none

def step : State ν → Token ν → Option (State ν)
  | .value stack, token => start stack token
  | .firstItem stack, .closeArray => some (deliver (.array []) stack)
  | .firstItem stack, token => start (.array [] :: stack) token
  | .afterItem done stack, .comma => some (.value (.array done :: stack))
  | .afterItem done stack, .closeArray => some (deliver (.array done) stack)
  | .firstKey stack, .string key => some (.colon [] key stack)
  | .firstKey stack, .closeObject => some (deliver (.object []) stack)
  | .key done stack, .string key => some (.colon done key stack)
  | .colon done key stack, .colon => some (.value (.member done key :: stack))
  | .afterMember done stack, .comma => some (.key done stack)
  | .afterMember done stack, .closeObject => some (deliver (.object done) stack)
  | _, _ => none

def run : State ν → List (Token ν) → Option (State ν)
  | s, [] => some s
  | s, token :: rest =>
      match step s token with
      | none => none
      | some s' => run s' rest

def parse (text : List (Token ν)) : Option (Value ν) :=
  match run (.value []) text with
  | some (.finished v) => some v
  | _ => none

/-! ## Reading what was printed -/

theorem run_cons {s s' : State ν} {token : Token ν} (stepped : step s token = some s')
    (rest : List (Token ν)) : run s (token :: rest) = run s' rest := by
  rw [run, stepped]

theorem run_append (s : State ν) (text rest : List (Token ν)) :
    run s (text ++ rest) = (run s text).bind fun s' => run s' rest := by
  induction text generalizing s with
  | nil => rfl
  | cons token text ih =>
      rw [List.cons_append, run, run]
      cases step s token with
      | none => rfl
      | some s' => exact ih s'

/-- A state that waits for the first item of an array takes the tokens of a value as one
that waits for an item. -/
theorem run_firstItem (v : Value ν) (stack : List (Frame ν)) (rest : List (Token ν)) :
    run (.firstItem stack) (v.tokens ++ rest) = run (.value (.array [] :: stack)) (v.tokens ++ rest) := by
  rcases v with _ | _ | _ | _ | ⟨_ | _⟩ | ⟨_ | ⟨⟨_, _⟩, _⟩⟩ <;> rfl

mutual

theorem run_tokens : ∀ (v : Value ν) (stack : List (Frame ν)) (rest : List (Token ν)),
    run (.value stack) (v.tokens ++ rest) = run (deliver v stack) rest
  | .null, _, _ => rfl
  | .bool _, _, _ => rfl
  | .number _, _, _ => rfl
  | .string _, _, _ => rfl
  | .array [], _, _ => rfl
  | .array (v :: items), stack, rest => by
      have first := run_tokens v (.array [] :: stack) (moreItems items ++ rest)
      have others := run_moreItems items [v] stack rest
      rw [Value.tokens, List.cons_append, List.append_assoc, run_cons rfl, run_firstItem, first]
      exact others
  | .object [], _, _ => rfl
  | .object ((key, v) :: members), stack, rest => by
      have first := run_tokens v (.member [] key :: stack) (moreMembers members ++ rest)
      have others := run_moreMembers members [(key, v)] stack rest
      rw [Value.tokens, List.cons_append, List.cons_append, List.cons_append, List.append_assoc,
        run_cons rfl, run_cons rfl, run_cons rfl, first]
      exact others

theorem run_moreItems : ∀ (items done : List (Value ν)) (stack : List (Frame ν))
    (rest : List (Token ν)), run (.afterItem done stack) (moreItems items ++ rest) =
      run (deliver (.array (done ++ items)) stack) rest
  | [], done, stack, rest => by
      rw [List.append_nil]
      rfl
  | v :: items, done, stack, rest => by
      have first := run_tokens v (.array done :: stack) (moreItems items ++ rest)
      have others := run_moreItems items (done ++ [v]) stack rest
      rw [moreItems, List.cons_append, List.append_assoc, run_cons rfl, first, deliver, others,
        List.append_assoc, List.singleton_append]

theorem run_moreMembers : ∀ (members done : List (String × Value ν)) (stack : List (Frame ν))
    (rest : List (Token ν)), run (.afterMember done stack) (moreMembers members ++ rest) =
      run (deliver (.object (done ++ members)) stack) rest
  | [], done, stack, rest => by
      rw [List.append_nil]
      rfl
  | (key, v) :: members, done, stack, rest => by
      have first := run_tokens v (.member done key :: stack) (moreMembers members ++ rest)
      have others := run_moreMembers members (done ++ [(key, v)]) stack rest
      rw [moreMembers, List.cons_append, List.cons_append, List.cons_append, List.append_assoc,
        run_cons rfl, run_cons rfl, run_cons rfl, first, deliver, others, List.append_assoc,
        List.singleton_append]

end

/-- **A printed value** reads back as itself. -/
theorem parse_tokens (v : Value ν) : parse v.tokens = some v := by
  have read := run_tokens v [] []
  rw [List.append_nil] at read
  rw [parse, read]
  rfl

/-! ## Texts that are not complete -/

def State.Pending : State ν → Prop
  | .finished _ => False
  | _ => True

theorem parse_of_pending {text : List (Token ν)} {s : State ν}
    (read : run (.value []) text = some s) (pending : s.Pending) : parse text = none := by
  rw [parse, read]
  cases s with
  | finished v => exact absurd pending not_false
  | _ => rfl

/-- Nothing may follow a value. -/
theorem run_finished (v : Value ν) (token : Token ν) (rest : List (Token ν)) :
    run (.finished v) (token :: rest) = none := by
  cases token <;> rfl

/-- **A printed value that breaks off** is no text of a value. -/
theorem parse_of_cut {v : Value ν} {text rest : List (Token ν)} (cut : text ++ rest = v.tokens)
    (more : rest ≠ []) : parse text = none := by
  rw [parse]
  split
  · rename_i v' read
    obtain ⟨token, others, rfl⟩ := List.exists_cons_of_ne_nil more
    have whole := run_tokens v [] []
    rw [List.append_nil, ← cut, run_append, read, Option.bind_some, run_finished] at whole
    cases whole
  · rfl

/-! ## Brackets -/

/-- How many brackets a text leaves open. -/
def Token.weight : Token ν → Int
  | .openArray | .openObject => 1
  | .closeArray | .closeObject => -1
  | _ => 0

def weight : List (Token ν) → Int
  | [] => 0
  | token :: rest => token.weight + weight rest

theorem weight_append (text rest : List (Token ν)) : weight (text ++ rest) = weight text + weight rest := by
  induction text with
  | nil => exact (Int.zero_add _).symm
  | cons token text ih => rw [List.cons_append, weight, weight, ih, Int.add_assoc]

/-- How many brackets are open. -/
def State.depth : State ν → Int
  | .value stack => stack.length
  | .firstItem stack | .afterItem _ stack | .firstKey stack | .key _ stack | .colon _ _ stack
  | .afterMember _ stack => stack.length + 1
  | .finished _ => 0

theorem depth_deliver (v : Value ν) (stack : List (Frame ν)) : (deliver v stack).depth = stack.length := by
  cases stack with
  | nil => rfl
  | cons frame stack => cases frame <;> simp [deliver, State.depth]

theorem depth_start {stack : List (Frame ν)} {token : Token ν} {s : State ν}
    (started : start stack token = some s) : s.depth = stack.length + token.weight := by
  cases token <;> simp only [start, Option.some.injEq, reduceCtorEq] at started <;> subst started
  case openArray | openObject => rfl
  all_goals
    rw [depth_deliver]
    exact (Int.add_zero _).symm

/-- What is no end of the array begins an item. -/
theorem step_firstItem (stack : List (Frame ν)) {token : Token ν} (other : token ≠ .closeArray) :
    step (.firstItem stack) token = start (.array [] :: stack) token := by
  cases token <;> first | rfl | exact absurd rfl other

theorem depth_step {s s' : State ν} {token : Token ν} (stepped : step s token = some s') :
    s'.depth = s.depth + token.weight := by
  cases s with
  | value stack => exact depth_start stepped
  | firstItem stack =>
      by_cases close : token = .closeArray
      · subst close
        cases stepped
        rw [depth_deliver]
        exact (Int.add_neg_cancel_right _ 1).symm
      · rw [step_firstItem stack close] at stepped
        exact depth_start stepped
  | afterItem _ stack | firstKey stack | key _ stack | colon _ _ stack | afterMember _ stack =>
      cases token <;> simp only [step, Option.some.injEq, reduceCtorEq] at stepped <;> subst stepped
      all_goals first
        | (rw [depth_deliver]; exact (Int.add_neg_cancel_right _ 1).symm)
        | simp [State.depth, Token.weight]
  | finished v => cases token <;> cases stepped

theorem depth_run {s s' : State ν} {text : List (Token ν)} (read : run s text = some s') :
    s'.depth = s.depth + weight text := by
  induction text generalizing s with
  | nil =>
      cases read
      simp [weight]
  | cons token rest ih =>
      rw [run] at read
      cases stepped : step s token with
      | none => rw [stepped] at read; cases read
      | some s₁ =>
          rw [stepped] at read
          rw [ih read, depth_step stepped, weight, Int.add_assoc]

/-- **A text that is read** leaves no bracket open. -/
theorem weight_of_parse {text : List (Token ν)} {v : Value ν} (read : parse text = some v) :
    weight text = 0 := by
  rw [parse] at read
  split at read
  · rename_i v' ran
    have depth := depth_run ran
    simp only [State.depth, List.length_nil] at depth
    omega
  · cases read

/-- Behind a token some bracket is open, or the value was read. -/
theorem depth_pos_of_step {s s' : State ν} {token : Token ν} (stepped : step s token = some s')
    (pending : s'.Pending) : 0 < s'.depth := by
  have delivers : ∀ (v : Value ν) (stack : List (Frame ν)), (deliver v stack).Pending →
      0 < (deliver v stack).depth := by
    intro v stack more
    rw [depth_deliver]
    cases stack with
    | nil => cases more
    | cons frame stack => simp only [List.length_cons]; omega
  have starts : ∀ (stack : List (Frame ν)), start stack token = some s' → 0 < s'.depth := by
    intro stack started
    cases token <;> simp only [start, Option.some.injEq, reduceCtorEq] at started <;> subst started
    all_goals first
      | exact delivers _ _ pending
      | (simp only [State.depth]; omega)
  cases s with
  | value stack => exact starts stack stepped
  | firstItem stack =>
      by_cases close : token = .closeArray
      · subst close
        cases stepped
        exact delivers _ _ pending
      · rw [step_firstItem stack close] at stepped
        exact starts _ stepped
  | afterItem _ stack | firstKey stack | key _ stack | colon _ _ stack | afterMember _ stack =>
      cases token <;> simp only [step, Option.some.injEq, reduceCtorEq] at stepped <;> subst stepped
      all_goals first
        | exact delivers _ _ pending
        | (simp only [State.depth, List.length_cons]; omega)
  | finished v => cases token <;> cases stepped

/-- **Inside a printed value** some bracket is open. -/
theorem weight_of_cut {v : Value ν} {text rest : List (Token ν)} (cut : text ++ rest = v.tokens)
    (some_ : text ≠ []) (more : rest ≠ []) : 0 < weight text := by
  obtain ⟨next, others, rfl⟩ := List.exists_cons_of_ne_nil more
  have whole := run_tokens v [] []
  rw [List.append_nil, ← cut, run_append] at whole
  obtain ⟨s, read, later⟩ := Option.bind_eq_some_iff.mp whole
  have pending : s.Pending := by
    cases s with
    | finished v' => rw [run_finished] at later; cases later
    | _ => exact trivial
  have depth : s.depth = 0 + weight text := depth_run read
  have last : 0 < s.depth := by
    rw [← List.dropLast_concat_getLast some_, run_append] at read
    obtain ⟨s₀, -, final⟩ := Option.bind_eq_some_iff.mp read
    rw [run] at final
    cases stepped : step s₀ (text.getLast some_) with
    | none => rw [stepped] at final; cases final
    | some s₁ =>
        rw [stepped] at final
        cases final
        exact depth_pos_of_step stepped pending
  omega

theorem weight_tokens (v : Value ν) : weight v.tokens = 0 := weight_of_parse (parse_tokens v)

/-- What is printed of a value, to its end or not, closes no bracket but its own. -/
theorem weight_nonneg {v : Value ν} {text : List (Token ν)} (front : text <+: v.tokens) :
    0 ≤ weight text := by
  obtain ⟨rest, cut⟩ := front
  by_cases none_ : text = []
  · subst none_
    exact Int.le_refl 0
  · by_cases all : rest = []
    · rw [all, List.append_nil] at cut
      subst cut
      exact Int.le_of_eq (weight_tokens v).symm
    · exact Int.le_of_lt (weight_of_cut cut none_ all)

/-- **Behind a part of a value** whatever is printed of others makes no text of a value. -/
theorem parse_of_cut_append {v : Value ν} {text rest : List (Token ν)} (cut : text ++ rest = v.tokens)
    (some_ : text ≠ []) (more : rest ≠ []) {parts : List (List (Token ν))}
    (printed : ∀ part ∈ parts, ∃ v : Value ν, part <+: v.tokens) : parse (text ++ parts.flatten) = none := by
  have others : 0 ≤ weight parts.flatten := by
    clear cut some_ more
    induction parts with
    | nil => exact Int.le_refl 0
    | cons part parts ih =>
        rw [List.forall_mem_cons] at printed
        obtain ⟨⟨v, front⟩, later⟩ := printed
        rw [List.flatten_cons, weight_append]
        exact Int.add_nonneg (weight_nonneg front) (ih later)
  have open_ := weight_of_cut cut some_ more
  cases read : parse (text ++ parts.flatten) with
  | none => rfl
  | some v' =>
      have closed := weight_of_parse read
      rw [weight_append] at closed
      omega

/-- Nothing is read behind a whole value. -/
theorem parse_tokens_append (v : Value ν) {rest : List (Token ν)} (more : rest ≠ []) :
    parse (v.tokens ++ rest) = none := by
  obtain ⟨next, others, rfl⟩ := List.exists_cons_of_ne_nil more
  have whole := run_tokens v [] (next :: others)
  rw [parse, whole, deliver, run_finished]

end Cronwatch.Theory.Json
