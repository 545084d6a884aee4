/-
**Integers are read back.**

An integer is written with decimal digits, without leading zeros, and a minus sign if it is
negative. The word is read as a number with these digits, and its value is the integer, as long as
that fits 64 bits.

* `Json.Number.digitsOf`: the decimal digits of a natural number;
* `Json.Number.ofInt`: the number that an integer is written as;
* **`Json.Number.parse?_toString`**: the word of an integer is read as this number;
* **`Json.Number.value?_ofInt`**: the value of this number is the integer.
-/

import Gatehouse.Json.Number
import Gatehouse.Proofs.Text.Encoding

namespace Gatehouse.Json.Number

open Text (Bytes)

/-! ### Decimal digits -/

/-- The decimal digits of a natural number, the first one first. -/
def digitsOf (n : Nat) : List Nat := (Nat.toDigits 10 n).map fun c => c.toNat - '0'.toNat

theorem isDigit_of_mem {n : Nat} {c : Char} (member : c ∈ Nat.toDigits 10 n) :
    48 ≤ c.toNat ∧ c.toNat ≤ 57 := by
  have digit := Nat.isDigit_of_mem_toDigits (by decide) (by decide) member
  simp only [Char.isDigit, Bool.and_eq_true, decide_eq_true_eq] at digit
  exact ⟨digit.1, digit.2⟩

/-- Digits make up their number. -/
theorem foldl_digitsOf (n : Nat) :
    (digitsOf n).foldl (fun value digit => value * 10 + digit) 0 = n := by
  rw [digitsOf, List.foldl_map]
  have whole := @Nat.ofDigitChars_ten_toDigits n
  rw [Nat.ofDigitChars_eq_foldl] at whole
  simpa only [Nat.mul_comm 10] using whole

theorem toNat_digitChar {digit : Nat} (small : digit < 10) :
    digit.digitChar.toNat - '0'.toNat = digit :=
  Nat.toNat_digitChar_sub_48_of_lt_ten small

theorem digitsOf_of_lt {n : Nat} (small : n < 10) : digitsOf n = [n] := by
  rw [digitsOf, Nat.toDigits_of_lt_base small, List.map_singleton, toNat_digitChar small]

theorem digitsOf_of_ge {n : Nat} (large : 10 ≤ n) : digitsOf n = digitsOf (n / 10) ++ [n % 10] := by
  rw [digitsOf, Nat.toDigits_of_base_le (by decide) large, List.map_append, List.map_singleton,
    toNat_digitChar (Nat.mod_lt n (by decide))]
  rfl

theorem digitsOf_ne_nil (n : Nat) : digitsOf n ≠ [] :=
  fun empty => Nat.toDigits_ne_nil (List.map_eq_nil_iff.mp empty)

/-- Only zero begins with the digit zero. -/
theorem head?_digitsOf {n : Nat} (positive : 0 < n) : (digitsOf n).head? ≠ some 0 := by
  induction n using Nat.strongRecOn with
  | ind n ih =>
    by_cases small : n < 10
    · rw [digitsOf_of_lt small, List.head?_cons]
      exact fun zero => absurd positive (by rw [Option.some.inj zero]; exact Nat.lt_irrefl 0)
    · rw [digitsOf_of_ge (by omega), List.head?_append_of_ne_nil _ (digitsOf_ne_nil _)]
      exact ih (n / 10) (by omega) (by omega)

/-- The digits of a number are not longer than one, or do not begin with zero. -/
theorem not_padded (n : Nat) :
    ((digitsOf n).isEmpty ||
      ((digitsOf n).length > 1 && (digitsOf n).head? == some 0)) = false := by
  rw [Bool.or_eq_false_iff, List.isEmpty_eq_false_iff]
  refine ⟨digitsOf_ne_nil n, ?_⟩
  by_cases zero : n = 0
  · rw [zero]
    rfl
  · rw [beq_eq_false_iff_ne.mpr (head?_digitsOf (Nat.pos_of_ne_zero zero)), Bool.and_false]

/-! ### Reading -/

/-- The bytes of the digits of a number. -/
theorem encode_repr (n : Nat) :
    Text.encode n.repr = (Nat.toDigits 10 n).map fun c => UInt8.ofNat c.toNat := by
  rw [Nat.repr_eq_ofList_toDigits, Text.encode_ofList]
  have each : ∀ c ∈ Nat.toDigits 10 n, String.utf8EncodeChar c = [UInt8.ofNat c.toNat] := by
    intro c member
    have := isDigit_of_mem member
    exact Text.utf8EncodeChar_of_small (by omega)
  rw [List.flatMap_congr each, List.map_eq_flatMap]

theorem digit?_ofNat {code : Nat} (digit : 48 ≤ code ∧ code ≤ 57) :
    digit? (UInt8.ofNat code) = some (code - '0'.toNat) := by
  have each : ∀ code < 58, 48 ≤ code → digit? (UInt8.ofNat code) = some (code - '0'.toNat) := by
    decide
  exact each code (by omega) digit.1

theorem digits_encode_repr (n : Nat) : digits (Text.encode n.repr) = (digitsOf n, []) := by
  rw [encode_repr, digitsOf]
  have each : ∀ c ∈ Nat.toDigits 10 n, 48 ≤ c.toNat ∧ c.toNat ≤ 57 := fun c => isDigit_of_mem
  generalize Nat.toDigits 10 n = chars at each
  induction chars with
  | nil => rfl
  | cons c rest ih =>
    obtain ⟨here, there⟩ := List.forall_mem_cons.mp each
    rw [List.map_cons, digits, digit?_ofNat here, ih there]
    rfl

/-- The number that an integer is written as. -/
def ofInt (value : Int) : Number := ⟨value < 0, digitsOf value.natAbs, none, none⟩

theorem mem_encode_repr {n : Nat} {byte : UInt8} (member : byte ∈ Text.encode n.repr) :
    48 ≤ byte.toNat ∧ byte.toNat ≤ 57 := by
  rw [encode_repr] at member
  obtain ⟨c, digit, rfl⟩ := List.mem_map.mp member
  have := isDigit_of_mem digit
  rw [UInt8.toNat_ofNat']
  omega

theorem encode_repr_ne_nil (n : Nat) : Text.encode n.repr ≠ [] := by
  rw [encode_repr]
  exact fun empty => Nat.toDigits_ne_nil (List.map_eq_nil_iff.mp empty)

/-- The word of an integer: a minus sign if it is negative, and digits. -/
theorem encode_toString (value : Int) : Text.encode (toString value) =
    (if value < 0 then [0x2D] else []) ++ Text.encode value.natAbs.repr := by
  cases value with
  | ofNat n => rfl
  | negSucc n =>
    rw [if_pos (Int.negSucc_lt_zero n)]
    exact Text.encode_append "-" (n + 1).repr

/-- **The word of an integer** is read as its number. -/
theorem parse?_toString (value : Int) :
    parse? (Text.encode (toString value)) = some (ofInt value) := by
  have read := digits_encode_repr value.natAbs
  rw [encode_toString]
  by_cases negative : value < 0
  · rw [if_pos negative, List.singleton_append, parse?]
    simp only [read, not_padded]
    simp [exponent?, ofInt, negative]
  · obtain ⟨byte, rest, word⟩ := List.exists_cons_of_ne_nil (encode_repr_ne_nil value.natAbs)
    have unsigned : byte ≠ 0x2D := by
      rintro rfl
      exact absurd (mem_encode_repr (word ▸ List.mem_cons_self)).1 (by decide)
    rw [if_neg negative, List.nil_append, word, parse?]
    · rw [word] at read
      simp only [read, not_padded]
      simp [exponent?, ofInt, negative]
    · intro after same
      cases same
      exact unsigned rfl

/-! ### The value -/

/-- Taking in more digits makes a number no smaller. -/
theorem le_foldl_digits (digits : List Nat) (significand : Nat) :
    significand ≤ digits.foldl (fun value digit => value * 10 + digit) significand := by
  induction digits generalizing significand with
  | nil => exact Nat.le_refl _
  | cons digit rest ih =>
    exact Nat.le_trans (show significand ≤ significand * 10 + digit by omega) (ih _)

theorem takeDigits_of_le {digits : List Nat} {significand : Nat}
    (fits : digits.foldl (fun value digit => value * 10 + digit) significand ≤ maxWord) :
    takeDigits significand digits =
      (digits.foldl (fun value digit => value * 10 + digit) significand, 0) := by
  induction digits generalizing significand with
  | nil => rfl
  | cons digit rest ih =>
    have here := Nat.le_trans (le_foldl_digits rest (significand * 10 + digit)) fits
    rw [takeDigits, if_pos here]
    exact ih fits

/-- Integers of 64 bits, with a sign or without. -/
def Fits (value : Int) : Prop := -((Nat.pow 2 63 : Nat) : Int) ≤ value ∧ value ≤ (maxWord : Int)

instance (value : Int) : Decidable (Fits value) := inferInstanceAs (Decidable (_ ∧ _))

/-- **The value of the number** of an integer of 64 bits is the integer. -/
theorem value?_ofInt {value : Int} (fits : Fits value) :
    (ofInt value).value? = some (.int value) := by
  obtain ⟨least, greatest⟩ := fits
  change -9223372036854775808 ≤ value at least
  change value ≤ 18446744073709551615 at greatest
  have fits : value.natAbs ≤ maxWord := by
    show value.natAbs ≤ 18446744073709551615
    omega
  have taken : takeDigits 0 (digitsOf value.natAbs) = (value.natAbs, 0) := by
    have whole := foldl_digitsOf value.natAbs
    rw [takeDigits_of_le (by rw [whole]; exact fits), whole]
  unfold ofInt value?
  simp only [taken]
  rw [if_neg (fun skipped => skipped rfl)]
  by_cases negative : value < 0
  · have bounded : ¬ (value.natAbs = 0 ∨ Nat.pow 2 63 < value.natAbs) := by
      show ¬ (value.natAbs = 0 ∨ 9223372036854775808 < value.natAbs)
      omega
    have same : -(value.natAbs : Int) = value := by omega
    rw [if_pos (decide_eq_true negative), if_neg bounded, same]
  · have same : (value.natAbs : Int) = value := by omega
    rw [if_neg (by rw [decide_eq_true_eq]; exact negative), same]

end Gatehouse.Json.Number
