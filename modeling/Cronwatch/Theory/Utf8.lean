/-
# Theory.Utf8 -- UTF-8 that is cut off anywhere

`encode` writes a text in UTF-8.  `decode` reads any bytes, and puts U+FFFD where they are
no UTF-8: one for each longest part that a character begins with, and one for a byte that
begins none.

The first bytes of a text end with a whole character or inside of one, `cutInto` bytes into
it; in the second case they are read back with a replacement in the place of that character
(`decode_take`), which is written in three bytes whatever stood there
(`length_decode_take`).
-/
import Mathlib.Data.List.Basic

namespace Cronwatch.Theory.Utf8

set_option autoImplicit false

def encode (text : List Char) : List UInt8 := text.flatMap String.utf8EncodeChar

/-- The character that the bytes begin with. -/
def decodeFirst (bytes : List UInt8) : Option Char := bytes.toByteArray.utf8DecodeChar? 0

/-- Whether a character of three or four bytes can begin with these two.  The narrower
ranges leave out what has a shorter form, the surrogates and what lies above U+10FFFF. -/
def follows (lead second : UInt8) : Bool :=
  if lead = 0xe0 then 0xa0 ≤ second ∧ second ≤ 0xbf
  else if lead = 0xed then 0x80 ≤ second ∧ second ≤ 0x9f
  else if lead = 0xf0 then 0x90 ≤ second ∧ second ≤ 0xbf
  else if lead = 0xf4 then 0x80 ≤ second ∧ second ≤ 0x8f
  else 0xe1 ≤ lead ∧ lead ≤ 0xf3 ∧ 0x80 ≤ second ∧ second ≤ 0xbf

/-- How many bytes one replacement stands for, where the bytes begin with no character. -/
def brokenLength : List UInt8 → Nat
  | lead :: second :: rest =>
      if follows lead second then
        match rest with
        | third :: _ => if 0xf0 ≤ lead ∧ 0x80 ≤ third ∧ third ≤ 0xbf then 3 else 2
        | [] => 2
      else 1
  | _ => 1

def replacement : Char := '\ufffd'

/-- The text of the bytes behind the first `skip` ones. -/
def decodeFrom : Nat → List UInt8 → List Char
  | _, [] => []
  | skip + 1, _ :: rest => decodeFrom skip rest
  | 0, b :: rest =>
      match decodeFirst (b :: rest) with
      | some c => c :: decodeFrom (c.utf8Size - 1) rest
      | none => replacement :: decodeFrom (brokenLength (b :: rest) - 1) rest

def decode (bytes : List UInt8) : List Char := decodeFrom 0 bytes

@[simp] theorem encode_nil : encode [] = [] := rfl

@[simp] theorem encode_cons (c : Char) (rest : List Char) :
    encode (c :: rest) = String.utf8EncodeChar c ++ encode rest := rfl

theorem encode_append (text text' : List Char) :
    encode (text ++ text') = encode text ++ encode text' :=
  List.flatMap_append

@[simp] theorem decode_nil : decode [] = [] := rfl

theorem decodeFrom_eq (skip : Nat) (bytes : List UInt8) :
    decodeFrom skip bytes = decode (bytes.drop skip) := by
  induction bytes generalizing skip with
  | nil => simp [decodeFrom, decode]
  | cons b rest ih =>
      cases skip with
      | zero => rfl
      | succ skip => rw [decodeFrom, ih, List.drop_succ_cons]

/-! ## Whole characters -/

theorem decodeFirst_append (c : Char) (rest : List UInt8) :
    decodeFirst (String.utf8EncodeChar c ++ rest) = some c := by
  rw [decodeFirst, List.toByteArray_append]
  exact ByteArray.utf8DecodeChar?_utf8EncodeChar_append

/-- A character in front is read back. -/
theorem decode_char_append (c : Char) (rest : List UInt8) :
    decode (String.utf8EncodeChar c ++ rest) = c :: decode rest := by
  have size := String.length_utf8EncodeChar c
  have first := decodeFirst_append c rest
  cases written : String.utf8EncodeChar c with
  | nil => exact absurd written String.utf8EncodeChar_ne_nil
  | cons b more =>
      rw [written] at first size
      rw [List.cons_append] at first ⊢
      rw [decode, decodeFrom, first]
      dsimp only
      rw [decodeFrom_eq, ← size, List.length_cons, Nat.add_sub_cancel, List.drop_left]

/-! ## A character that breaks off -/

/-- No character begins another one. -/
theorem decodeFirst_take {c : Char} {n : Nat} (short : n < c.utf8Size) :
    decodeFirst ((String.utf8EncodeChar c).take n) = none := by
  rw [Option.eq_none_iff_forall_not_mem]
  intro c' found
  obtain ⟨more, begins⟩ := ByteArray.exists_of_utf8DecodeChar?_eq_some found
  have listed : (String.utf8EncodeChar c).take n =
      String.utf8EncodeChar c' ++ more.data.toList := by
    simpa using congrArg (fun bytes => bytes.data.toList) begins
  have whole := List.take_append_drop n (String.utf8EncodeChar c)
  have same := decodeFirst_append c []
  rw [List.append_nil, ← whole, listed, List.append_assoc, decodeFirst_append] at same
  cases same
  have lengths := congrArg List.length listed
  simp only [List.length_take, List.length_append, String.length_utf8EncodeChar] at lengths
  omega

theorem follows_iff (lead second : UInt8) : follows lead second = true ↔
    0xe0 ≤ lead.toNat ∧ lead.toNat ≤ 0xf4 ∧ 0x80 ≤ second.toNat ∧ second.toNat ≤ 0xbf ∧
      (lead.toNat = 0xe0 → 0xa0 ≤ second.toNat) ∧ (lead.toNat = 0xed → second.toNat ≤ 0x9f) ∧
      (lead.toNat = 0xf0 → 0x90 ≤ second.toNat) ∧ (lead.toNat = 0xf4 → second.toNat ≤ 0x8f) := by
  simp only [follows, ← UInt8.toNat_inj, UInt8.le_iff_toNat_le, UInt8.reduceToNat]
  split_ifs <;> simp only [decide_eq_true_eq] <;> omega

theorem brokenLength_of_follows {lead second : UInt8} (ok : follows lead second = true) :
    brokenLength [lead, second] = 2 := by
  rw [brokenLength, if_pos ok]

theorem brokenLength_of_third {lead second third : UInt8} (ok : follows lead second = true)
    (four : 0xf0 ≤ lead.toNat) (low : 0x80 ≤ third.toNat) (high : third.toNat ≤ 0xbf) :
    brokenLength [lead, second, third] = 3 := by
  have both : 0xf0 ≤ lead ∧ 0x80 ≤ third ∧ third ≤ 0xbf := by
    simp only [UInt8.le_iff_toNat_le, UInt8.reduceToNat]
    exact ⟨four, low, high⟩
  rw [brokenLength, if_pos ok, if_pos both]

theorem toNat_ofNat_of_lt {n : Nat} (small : n < 256) : (UInt8.ofNat n).toNat = n := by
  rw [UInt8.toNat_ofNat', Nat.mod_eq_of_lt small]

/-- What there is of the character counts as one part. -/
theorem brokenLength_take {c : Char} {n : Nat} (started : 0 < n) (short : n < c.utf8Size) :
    brokenLength ((String.utf8EncodeChar c).take n) = n := by
  have valid : c.val.toNat < 0xd800 ∨ 0xdfff < c.val.toNat ∧ c.val.toNat < 0x110000 := c.valid
  rw [← String.length_utf8EncodeChar] at short
  revert short
  fun_cases String.utf8EncodeChar c with
  | case1 v one =>
      intro short
      exact absurd short (Nat.not_lt.mpr started)
  | case2 v one two =>
      intro short
      have only : n = 1 := Nat.le_antisymm (Nat.le_of_lt_succ short) started
      subst only
      rfl
  | case3 v one two three =>
      intro short
      obtain rfl | rfl : n = 1 ∨ n = 2 := by
        simp only [List.length_cons, List.length_nil] at short
        omega
      · rfl
      · refine brokenLength_of_follows ((follows_iff _ _).mpr ?_)
        rw [toNat_ofNat_of_lt (by omega), toNat_ofNat_of_lt (by omega)]
        omega
  | case4 v one two three =>
      intro short
      have second : follows (UInt8.ofNat (v / 262144 % 8 + 240)) (UInt8.ofNat (v / 4096 % 64 + 128)) =
          true := by
        rw [follows_iff, toNat_ofNat_of_lt (by omega), toNat_ofNat_of_lt (by omega)]
        omega
      obtain rfl | rfl | rfl : n = 1 ∨ n = 2 ∨ n = 3 := by
        simp only [List.length_cons, List.length_nil] at short
        omega
      · rfl
      · exact brokenLength_of_follows second
      · refine brokenLength_of_third second ?_ ?_ ?_
        all_goals
          rw [toNat_ofNat_of_lt (by omega)]
          omega

/-- A character that breaks off is read as one replacement. -/
theorem decode_char_take {c : Char} {n : Nat} (started : 0 < n) (short : n < c.utf8Size) :
    decode ((String.utf8EncodeChar c).take n) = [replacement] := by
  have none_ := decodeFirst_take short
  have part := brokenLength_take started short
  have size : ((String.utf8EncodeChar c).take n).length = n := by
    rw [List.length_take, String.length_utf8EncodeChar]
    omega
  cases written : (String.utf8EncodeChar c).take n with
  | nil =>
      rw [written] at size
      exact absurd started (size ▸ Nat.lt_irrefl 0)
  | cons b more =>
      rw [written] at none_ part size
      rw [decode, decodeFrom, none_]
      dsimp only
      rw [decodeFrom_eq, part, ← size, List.length_cons, Nat.add_sub_cancel, List.drop_length]
      rfl

/-! ## A text cut off -/

/-- How many bytes into a character the cut behind the first `n` bytes falls. -/
def cutInto : Nat → List Char → Nat
  | _, [] => 0
  | n, c :: rest => if n < c.utf8Size then n else cutInto (n - c.utf8Size) rest

/-- The characters that the first `n` bytes hold. -/
def whole : Nat → List Char → List Char
  | _, [] => []
  | n, c :: rest => if n < c.utf8Size then [] else c :: whole (n - c.utf8Size) rest

/-- The first bytes are the whole characters and the part of one. -/
theorem length_encode_whole {n : Nat} {text : List Char} (within : n ≤ (encode text).length) :
    (encode (whole n text)).length + cutInto n text = n := by
  induction text generalizing n with
  | nil => simpa [whole, cutInto, eq_comm] using within
  | cons c rest ih =>
      rw [encode_cons, List.length_append, String.length_utf8EncodeChar] at within
      rw [whole, cutInto]
      split
      · simp
      · rename_i reaches
        have later := ih (n := n - c.utf8Size) (by omega)
        rw [encode_cons, List.length_append, String.length_utf8EncodeChar]
        omega

/-- **What the first bytes are read back as.** -/
theorem decode_take {n : Nat} {text : List Char} (within : n ≤ (encode text).length) :
    decode ((encode text).take n) =
      whole n text ++ if cutInto n text = 0 then [] else [replacement] := by
  induction text generalizing n with
  | nil => simp [whole, cutInto]
  | cons c rest ih =>
      have size := String.length_utf8EncodeChar c
      rw [encode_cons, List.length_append, size] at within
      rw [whole, cutInto, encode_cons, List.take_append, size]
      split
      · rename_i short
        have none_ : n - c.utf8Size = 0 := by omega
        rw [none_, List.take_zero, List.append_nil, List.nil_append]
        split
        · rename_i zero
          rw [zero, List.take_zero, decode_nil]
        · rename_i started
          exact decode_char_take (Nat.pos_of_ne_zero started) short
      · rename_i reaches
        have all : (String.utf8EncodeChar c).take n = String.utf8EncodeChar c :=
          List.take_of_length_le (by omega)
        rw [all, decode_char_append, ih (by omega), List.cons_append]

theorem length_encode_replacement : (encode [replacement]).length = 3 := rfl

/-- **How long that is** in UTF-8. -/
theorem length_decode_take {n : Nat} {text : List Char} (within : n ≤ (encode text).length) :
    (encode (decode ((encode text).take n))).length =
      n - cutInto n text + if cutInto n text = 0 then 0 else 3 := by
  have parts := length_encode_whole within
  rw [decode_take within, encode_append, List.length_append]
  split
  · rw [encode_nil, List.length_nil]
    omega
  · rw [length_encode_replacement]
    omega

/-- The cut is safe unless it leaves one or two bytes of a character. -/
theorem length_decode_take_le_iff {n : Nat} {text : List Char}
    (within : n ≤ (encode text).length) :
    (encode (decode ((encode text).take n))).length ≤ n ↔
      cutInto n text ≠ 1 ∧ cutInto n text ≠ 2 := by
  have parts := length_encode_whole within
  rw [length_decode_take within]
  split <;> omega

end Cronwatch.Theory.Utf8
