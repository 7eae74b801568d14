/-
# Runtime.Text -- `str.strip`, `int(text)` and `str(n)`

`intOf` reads a string as the built-in `int` does in base ten: surrounding white space,
one sign, decimal digits of any script, single underscores between digits.  The
interpreter's optional limit on the number of digits is taken as unbounded.
`strOf` writes a natural number in decimal; `intOf_strOf` is the round trip.
-/

namespace Cronwatch.Runtime

set_option autoImplicit false

/-- The characters for which `str.isspace` holds. -/
def isSpace (c : Char) : Bool :=
  let n := c.toNat
  (9 ≤ n ∧ n ≤ 13) ∨ (28 ≤ n ∧ n ≤ 32) ∨ n = 0x85 ∨ n = 0xa0 ∨ n = 0x1680 ∨
    (0x2000 ≤ n ∧ n ≤ 0x200a) ∨ n = 0x2028 ∨ n = 0x2029 ∨ n = 0x202f ∨ n = 0x205f ∨ n = 0x3000

def strip (text : List Char) : List Char :=
  ((text.dropWhile isSpace).reverse.dropWhile isSpace).reverse

/-- The code points of the digit zero in the scripts that have decimal digits (Unicode
14); the other nine follow each of them. -/
def decimalZeros : List Nat :=
  [0x30, 0x660, 0x6f0, 0x7c0, 0x966, 0x9e6, 0xa66, 0xae6, 0xb66, 0xbe6, 0xc66, 0xce6, 0xd66, 0xde6,
    0xe50, 0xed0, 0xf20, 0x1040, 0x1090, 0x17e0, 0x1810, 0x1946, 0x19d0, 0x1a80, 0x1a90, 0x1b50,
    0x1bb0, 0x1c40, 0x1c50, 0xa620, 0xa8d0, 0xa900, 0xa9d0, 0xa9f0, 0xaa50, 0xabf0, 0xff10, 0x104a0,
    0x10d30, 0x11066, 0x110f0, 0x11136, 0x111d0, 0x112f0, 0x11450, 0x114d0, 0x11650, 0x116c0,
    0x11730, 0x118e0, 0x11950, 0x11c50, 0x11d50, 0x11da0, 0x16a60, 0x16ac0, 0x16b50, 0x1d7ce,
    0x1d7d8, 0x1d7e2, 0x1d7ec, 0x1d7f6, 0x1e140, 0x1e2f0, 0x1e950, 0x1fbf0]

def decimalValue? (c : Char) : Option Nat :=
  (decimalZeros.find? fun base => base ≤ c.toNat ∧ c.toNat < base + 10).map (c.toNat - ·)

/-- The digits after the first one; an underscore must stand between two digits. -/
def digitsFrom (value : Nat) : List Char → Option Nat
  | [] => some value
  | '_' :: c :: rest => (decimalValue? c).bind fun digit => digitsFrom (10 * value + digit) rest
  | c :: rest => (decimalValue? c).bind fun digit => digitsFrom (10 * value + digit) rest

def digits : List Char → Option Nat
  | [] => none
  | c :: rest => (decimalValue? c).bind fun digit => digitsFrom digit rest

/-- `int(text)`; `none` is the `ValueError`. -/
def intOf (text : String) : Option Int :=
  match strip text.toList with
  | '-' :: rest => (digits rest).map fun n => -(n : Int)
  | '+' :: rest => (digits rest).map Int.ofNat
  | rest => (digits rest).map Int.ofNat

/-- `str(n)` of a natural number. -/
def strOf (n : Nat) : String := String.ofList (Nat.toDigits 10 n)

/-! ## The round trip -/

theorem toNat_of_isDigit {c : Char} (isDigit : c.isDigit) : 48 ≤ c.toNat ∧ c.toNat < 58 := by
  simp only [Char.isDigit, Bool.and_eq_true, decide_eq_true_eq, UInt32.le_iff_toNat_le] at isDigit
  exact ⟨isDigit.1, Nat.lt_succ_of_le isDigit.2⟩

theorem decimalValue?_of_isDigit {c : Char} (isDigit : c.isDigit) :
    decimalValue? c = some (c.toNat - 48) := by
  simp [decimalValue?, decimalZeros, toNat_of_isDigit isDigit]

theorem not_isSpace_of_isDigit {c : Char} (isDigit : c.isDigit) : isSpace c = false := by
  have range := toNat_of_isDigit isDigit
  simp [isSpace]
  omega

theorem digitsFrom_of_isDigit (text : List Char) (value : Nat)
    (allDigits : ∀ c ∈ text, c.isDigit) :
    digitsFrom value text = some (Nat.ofDigitChars 10 text value) := by
  induction text generalizing value with
  | nil => rfl
  | cons c rest ih =>
      have isDigit := allDigits c List.mem_cons_self
      have plain : c ≠ '_' := by
        rintro rfl
        cases isDigit
      have later := fun d member => allDigits d (List.mem_cons_of_mem c member)
      rw [Nat.ofDigitChars_cons]
      cases rest with
      | nil => simp [digitsFrom, decimalValue?_of_isDigit isDigit]
      | cons d rest =>
          rw [digitsFrom]
          · simp only [decimalValue?_of_isDigit isDigit, Option.bind_some]
            exact ih _ later
          · rintro c' rest' same -
            exact plain same

theorem dropWhile_isSpace {text : List Char} (noSpace : ∀ c ∈ text, isSpace c = false) :
    text.dropWhile isSpace = text := by
  cases text with
  | nil => rfl
  | cons c rest => simp [List.dropWhile, noSpace c List.mem_cons_self]

theorem strip_of_not_isSpace {text : List Char} (noSpace : ∀ c ∈ text, isSpace c = false) :
    strip text = text := by
  have reversed : ∀ c ∈ text.reverse, isSpace c = false := fun c member =>
    noSpace c (List.mem_reverse.mp member)
  rw [strip, dropWhile_isSpace noSpace, dropWhile_isSpace reversed, List.reverse_reverse]

theorem strip_of_isDigit {text : List Char} (allDigits : ∀ c ∈ text, c.isDigit) :
    strip text = text :=
  strip_of_not_isSpace fun c member => not_isSpace_of_isDigit (allDigits c member)

/-- A text between two characters that are no white space is left as it is. -/
theorem strip_of_ends {first last : Char} (noSpace : isSpace first = false)
    (noSpace' : isSpace last = false) (middle : List Char) :
    strip (first :: (middle ++ [last])) = first :: (middle ++ [last]) := by
  have front : (first :: (middle ++ [last])).dropWhile isSpace = first :: (middle ++ [last]) :=
    List.dropWhile_cons_of_neg (by simp [noSpace])
  rw [strip, front]
  simp [noSpace']

theorem isDigit_of_mem_strOf (n : Nat) : ∀ c ∈ (strOf n).toList, c.isDigit := by
  intro c member
  rw [strOf, String.toList_ofList] at member
  exact Nat.isDigit_of_mem_toDigits (by decide) (by decide) member

@[simp] theorem strip_strOf (n : Nat) : strip (strOf n).toList = (strOf n).toList :=
  strip_of_isDigit (isDigit_of_mem_strOf n)

theorem digits_strOf (n : Nat) : digits (strOf n).toList = some n := by
  have allDigits := isDigit_of_mem_strOf n
  have back := Nat.ofDigitChars_ten_toDigits (n := n)
  rw [strOf, String.toList_ofList] at allDigits ⊢
  cases written : Nat.toDigits 10 n with
  | nil => exact absurd written Nat.toDigits_ne_nil
  | cons c rest =>
      rw [written] at allDigits back
      rw [Nat.ofDigitChars_cons] at back
      rw [digits, decimalValue?_of_isDigit (allDigits c List.mem_cons_self), Option.bind_some,
        digitsFrom_of_isDigit rest _ fun d member => allDigits d (List.mem_cons_of_mem c member)]
      simpa using back

/-- **Reading back what was written.** -/
theorem intOf_strOf (n : Nat) : intOf (strOf n) = some (n : Int) := by
  have allDigits := isDigit_of_mem_strOf n
  have value := digits_strOf n
  rw [intOf, strip_strOf]
  -- a sign in front would not be a digit
  split
  · rename_i signed
    rw [signed] at allDigits
    cases allDigits '-' List.mem_cons_self
  · rename_i signed
    rw [signed] at allDigits
    cases allDigits '+' List.mem_cons_self
  · rw [value]
    rfl

end Cronwatch.Runtime
