/-
# Runtime.Keywords -- calling a function by keywords

The interpreter matches the keywords of a call against the parameters of the function
before anything of its body runs: a keyword that is no parameter is an error, and then a
required parameter that is not given.
-/
import Cronwatch.Runtime.Python

namespace Cronwatch.Runtime

set_option autoImplicit false

structure Signature where
  function : String
  required : List String
  optional : List String := []

namespace Signature

def parameters (f : Signature) : List String := f.required ++ f.optional

def unexpected (f : Signature) (keyword : String) : PyException :=
  .typeError s!"{f.function}() got an unexpected keyword argument '{keyword}'"

/-- `'a'`, `'a' and 'b'`, `'a', 'b', and 'c'`. -/
def enumerated : List String → String
  | [] => ""
  | [a] => s!"'{a}'"
  | [a, b] => s!"'{a}' and '{b}'"
  | names =>
      ", ".intercalate (names.dropLast.map fun a => s!"'{a}'") ++ ", and '" ++
        names.getLastD "" ++ "'"

def missing (f : Signature) (names : List String) : PyException :=
  let plural := if names.length = 1 then "" else "s"
  .typeError s!"{f.function}() missing {names.length} required positional argument{plural}: {enumerated names}"

/-- The check of a call with these keywords, in their order. -/
def bind (f : Signature) (keywords : List String) : Except PyException Unit :=
  match keywords.find? fun keyword => keyword ∉ f.parameters with
  | some keyword => .error (f.unexpected keyword)
  | none =>
      match f.required.filter fun name => name ∉ keywords with
      | [] => .ok ()
      | names => .error (f.missing names)

/-- **Which calls go through**: every keyword is a parameter, and all required ones are
given. -/
theorem bind_returns_iff (f : Signature) (keywords : List String) :
    f.bind keywords = .ok () ↔
      (∀ keyword ∈ keywords, keyword ∈ f.parameters) ∧ ∀ name ∈ f.required, name ∈ keywords := by
  unfold bind
  split
  · rename_i keyword found
    have foreign : keyword ∉ f.parameters := by simpa using List.find?_some found
    refine iff_of_false (fun impossible => by cases impossible) fun all => ?_
    exact foreign (all.1 keyword (List.mem_of_find?_eq_some found))
  · rename_i known
    have parameters : ∀ keyword ∈ keywords, keyword ∈ f.parameters := by
      simpa [List.find?_eq_none] using known
    split
    · rename_i complete
      refine iff_of_true rfl ⟨parameters, ?_⟩
      simpa [List.filter_eq_nil_iff] using complete
    · rename_i incomplete
      refine iff_of_false (fun impossible => by cases impossible) fun all => incomplete ?_
      simpa [List.filter_eq_nil_iff] using all.2

/-- The first keyword that is no parameter is the one reported. -/
theorem bind_of_foreign (f : Signature) {before after : List String} {keyword : String}
    (known : ∀ k ∈ before, k ∈ f.parameters) (foreign : keyword ∉ f.parameters) :
    f.bind (before ++ keyword :: after) = .error (f.unexpected keyword) := by
  have found : (before ++ keyword :: after).find? (fun k => k ∉ f.parameters) = some keyword := by
    rw [List.find?_append, List.find?_eq_none.mpr (by simpa using known), Option.none_or,
      List.find?_cons_of_pos (by simpa using foreign)]
  rw [bind, found]

end Signature

end Cronwatch.Runtime
