/-
**Numbers in addresses.**

The numbers of an address are written without leading zeros, in decimal or in hexadecimal, and read
up to the first character that is no digit. What is written is read back, whatever follows that
begins with no digit.

* `Network.NoDigit`: a text that does not go on a number;
* `Network.digits_toDigits`: the digits of a number are read as its digits;
* **`Network.number?_toDigits`**: the number is read back;
* **`Network.dotted?_dotted`**: so are four bytes with points between them.
-/

import Gatehouse.Network.Address
import Mathlib.Data.List.Basic

namespace Gatehouse.Network

variable {base n : Nat} {word rest : List Char}

/-! ### Digits -/

/-- A text does not begin with a digit. -/
def NoDigit (base : Nat) (text : List Char) : Prop := ∀ c ∈ text.head?, digit? base c = none

theorem noDigit_cons {c : Char} (other : digit? base c = none) : NoDigit base (c :: rest) := by
  rintro d ⟨⟩
  exact other

theorem digits_of_noDigit (ends : NoDigit base rest) : digits base rest = ([], rest) := by
  cases rest with
  | nil => rfl
  | cons c rest => rw [digits, ends c rfl]

theorem digit?_digitChar (few : base ≤ 16) {value : Nat} (small : value < base) :
    digit? base value.digitChar = some value := by
  have each : ∀ base ≤ 16, ∀ value < base, digit? base (Nat.digitChar value) = some value := by
    decide
  exact each base few value small

/-- A decimal digit is a hexadecimal one. -/
theorem digit?_ten_of_sixteen {c : Char} (other : digit? 16 c = none) : digit? 10 c = none := by
  have decimal : c.toNat - '0'.toNat < 10 → c.toNat - '0'.toNat < 16 := by omega
  simp only [digit?, ite_eq_right_iff, reduceCtorEq, imp_false] at other ⊢
  split at other
  case isTrue digit => rw [if_pos digit]; exact mt decimal other
  case isFalse letter =>
    rw [if_neg letter]
    split
    case isTrue => omega
    case isFalse =>
      split <;> omega

/-- Digits are ASCII characters. -/
theorem digit?_of_large {c : Char} (large : 128 ≤ c.toNat) : digit? base c = none := by
  have above : ∀ last : Char, last.toNat < 128 → ¬c ≤ last := fun last small le =>
    absurd (show c.toNat ≤ last.toNat from le) (by omega)
  simp only [digit?, above '9' (by decide), above 'f' (by decide), above 'F' (by decide), and_false,
    if_false, Nat.lt_irrefl]

theorem NoDigit.ten (ends : NoDigit 16 rest) : NoDigit 10 rest :=
  fun c first => digit?_ten_of_sixteen (ends c first)

/-- What holds of numbers with one digit, and of a number if it holds without its last digit. -/
theorem by_digits {motive : Nat → Prop} (two : 1 < base) (single : ∀ n < base, motive n)
    (longer : ∀ n, base ≤ n → motive (n / base) → motive n) (n : Nat) : motive n := by
  induction n using Nat.strongRecOn with
  | ind n ih =>
    by_cases small : n < base
    · exact single n small
    · have large := Nat.le_of_not_lt small
      exact longer n large (ih (n / base) (Nat.div_lt_self (by omega) two))

/-- The values of the digits of a number. -/
def digitValues (base n : Nat) : List Nat := (Nat.toDigits base n).filterMap (digit? base)

theorem digitValues_of_lt (few : base ≤ 16) (small : n < base) : digitValues base n = [n] := by
  rw [digitValues, Nat.toDigits_of_lt_base small, List.filterMap_cons,
    digit?_digitChar few small, List.filterMap_nil]

theorem digitValues_of_ge (two : 1 < base) (few : base ≤ 16) (large : base ≤ n) :
    digitValues base n = digitValues base (n / base) ++ [n % base] := by
  rw [digitValues, Nat.toDigits_of_base_le two large, List.filterMap_append, List.filterMap_cons,
    digit?_digitChar few (Nat.mod_lt n (by omega)), List.filterMap_nil]
  rfl

/-- Digits make up their number. -/
theorem foldl_digitValues (two : 1 < base) (few : base ≤ 16) (n : Nat) :
    (digitValues base n).foldl (fun value digit => value * base + digit) 0 = n := by
  induction n using by_digits two with
  | single n small => rw [digitValues_of_lt few small, List.foldl_cons, List.foldl_nil]; omega
  | longer n large ih =>
    rw [digitValues_of_ge two few large, List.foldl_append, ih]
    exact Nat.div_add_mod' n base

theorem length_digitValues (two : 1 < base) (few : base ≤ 16) (n : Nat) :
    (digitValues base n).length = (Nat.toDigits base n).length := by
  induction n using by_digits two with
  | single n small => rw [digitValues_of_lt few small, Nat.toDigits_of_lt_base small]; rfl
  | longer n large ih =>
    rw [digitValues_of_ge two few large, Nat.toDigits_of_base_le two large, List.length_append, ih,
      List.length_append]
    rfl

theorem digitValues_ne_nil (two : 1 < base) (few : base ≤ 16) (n : Nat) :
    digitValues base n ≠ [] := by
  rw [← List.length_pos_iff, length_digitValues two few]
  exact List.length_pos_iff.mpr Nat.toDigits_ne_nil

/-- Only zero begins with the digit zero. -/
theorem eq_zero_of_head? (two : 1 < base) (few : base ≤ 16)
    (zero : (digitValues base n).head? = some 0) : n = 0 := by
  induction n using by_digits two with
  | single n small =>
    rw [digitValues_of_lt few small] at zero
    exact Option.some.inj zero
  | longer n large ih =>
    rw [digitValues_of_ge two few large,
      List.head?_append_of_ne_nil _ (digitValues_ne_nil two few _)] at zero
    have := Nat.div_pos large (by omega)
    have := ih zero
    omega

/-- Every character of a number is a digit. -/
theorem isSome_digit? (two : 1 < base) (few : base ≤ 16) (n : Nat) :
    ∀ c ∈ Nat.toDigits base n, (digit? base c).isSome = true := by
  induction n using by_digits two with
  | single n small =>
    rw [Nat.toDigits_of_lt_base small, List.forall_mem_singleton, digit?_digitChar few small]
    rfl
  | longer n large ih =>
    rw [Nat.toDigits_of_base_le two large, List.forall_mem_append]
    refine ⟨ih, ?_⟩
    rw [List.forall_mem_singleton, digit?_digitChar few (Nat.mod_lt n (by omega))]
    rfl

theorem digits_append (all : ∀ c ∈ word, (digit? base c).isSome = true) (ends : NoDigit base rest) :
    digits base (word ++ rest) = (word.filterMap (digit? base), rest) := by
  induction word with
  | nil => exact digits_of_noDigit ends
  | cons c word ih =>
    obtain ⟨here, there⟩ := List.forall_mem_cons.mp all
    obtain ⟨value, known⟩ := Option.isSome_iff_exists.mp here
    rw [List.cons_append, digits, known, ih there, List.filterMap_cons, known]

theorem digits_toDigits (two : 1 < base) (few : base ≤ 16) (ends : NoDigit base rest) :
    digits base (Nat.toDigits base n ++ rest) = (digitValues base n, rest) :=
  digits_append (isSome_digit? two few n) ends

/-! ### Numbers -/

theorem number?_of_noDigit {bound : Nat} {limit : Option Nat} {leadingZeros : Bool}
    (ends : NoDigit base rest) : number? base bound limit leadingZeros rest = none := by
  rw [number?, digits_of_noDigit ends]
  rfl

/-- **A number is read back**, if it is below the bound and has no more digits than it may have. -/
theorem number?_toDigits {bound : Nat} {limit : Option Nat} (leadingZeros : Bool) (two : 1 < base)
    (few : base ≤ 16) (below : n < bound) (short : ∀ most ∈ limit, 0 < most ∧ n < Nat.pow base most)
    (ends : NoDigit base rest) :
    number? base bound limit leadingZeros (Nat.toDigits base n ++ rest) = some (n, rest) := by
  have given : (digitValues base n).isEmpty = false :=
    List.isEmpty_eq_false_iff.mpr (digitValues_ne_nil two few n)
  have within : limit.any (· < (digitValues base n).length) = false := by
    cases limit with
    | none => rfl
    | some most =>
      obtain ⟨positive, fits⟩ := short most rfl
      rw [length_digitValues two few]
      exact decide_eq_false (Nat.not_lt_of_le ((Nat.length_toDigits_le_iff two positive).mpr fits))
  -- a number of several digits does not begin with a zero
  have unpadded : (1 < (digitValues base n).length && (digitValues base n).head? == some 0) =
      false := by
    refine Bool.eq_false_iff.mpr fun padded => ?_
    rw [Bool.and_eq_true, decide_eq_true_eq, beq_iff_eq] at padded
    obtain rfl := eq_zero_of_head? two few padded.2
    rw [digitValues_of_lt few (by omega)] at padded
    exact Nat.lt_irrefl 1 padded.1
  unfold number?
  rw [digits_toDigits two few ends]
  dsimp only
  rw [given, within, foldl_digitValues two few, Bool.and_assoc, unpadded,
    decide_eq_false (Nat.not_le_of_lt below), Bool.and_false]
  rfl

/-! ### Four bytes -/

theorem toList_toString (n : Nat) : (toString n).toList = Nat.toDigits 10 n := by
  show n.repr.toList = _
  rw [Nat.repr_eq_ofList_toDigits, String.toList_ofList]

theorem toList_dotted (a b c d : UInt8) :
    (IpAddress.dotted a b c d).toList = Nat.toDigits 10 a.toNat ++
      '.' :: (Nat.toDigits 10 b.toNat ++ '.' :: (Nat.toDigits 10 c.toNat ++
        '.' :: Nat.toDigits 10 d.toNat)) := by
  unfold IpAddress.dotted
  simp only [List.map_cons, List.map_nil, String.intercalate_cons_cons, String.intercalate_singleton,
    String.toList_append, toList_toString, List.append_assoc]
  rfl

theorem number?_byte (byte : UInt8) (ends : NoDigit 10 rest) :
    number? 10 256 (some 3) false (Nat.toDigits 10 byte.toNat ++ rest) = some (byte.toNat, rest) := by
  have below : byte.toNat < 256 := byte.toNat_lt
  refine number?_toDigits false (by decide) (by decide) below ?_ ends
  rintro most ⟨⟩
  exact ⟨by decide, Nat.lt_trans below (by decide)⟩

/-- **Four bytes are read back.** -/
theorem dotted?_dotted (a b c d : UInt8) (ends : NoDigit 10 rest) :
    dotted? ((IpAddress.dotted a b c d).toList ++ rest) = some ((a, b, c, d), rest) := by
  have point : ∀ rest, NoDigit 10 ('.' :: rest) := fun rest => noDigit_cons (by decide)
  rw [toList_dotted]
  simp only [List.append_assoc, List.cons_append]
  simp only [dotted?, number?_byte _ (point _), number?_byte d ends, expect?, if_true,
    Option.bind_eq_bind, Option.bind_some, Option.pure_def, Nat.toUInt8, UInt8.ofNat_toNat]

/-- Without a point behind its first decimal digits a text begins with no four bytes. -/
theorem dotted?_eq_none (other : (digits 10 rest).2.head? ≠ some '.') : dotted? rest = none := by
  have stuck : ∀ {value left}, number? 10 256 (some 3) false rest = some (value, left) →
      expect? '.' left = none := by
    intro value left read
    have same : left = (digits 10 rest).2 := by
      unfold number? at read
      dsimp only at read
      split at read
      case isTrue => exact nomatch read
      case isFalse => exact (Prod.mk.inj (Option.some.inj read)).2.symm
    subst same
    cases shape : (digits 10 rest).2 with
    | nil => rfl
    | cons c others =>
      refine if_neg fun point => other ?_
      rw [shape, point]
      rfl
  unfold dotted?
  dsimp only
  cases read : number? 10 256 (some 3) false rest with
  | none => rfl
  | some found =>
    obtain ⟨value, left⟩ := found
    show ((expect? '.' left).bind _) = none
    rw [stuck read]
    rfl

/-- Behind hexadecimal digits without a point there are no four bytes. -/
theorem dotted?_of_hex (all : ∀ c ∈ word, (digit? 16 c).isSome = true) (ends : NoDigit 16 rest)
    (point : rest.head? ≠ some '.') : dotted? (word ++ rest) = none := by
  refine dotted?_eq_none ?_
  induction word with
  | nil =>
    rw [List.nil_append, digits_of_noDigit ends.ten]
    exact point
  | cons c word ih =>
    obtain ⟨here, there⟩ := List.forall_mem_cons.mp all
    rw [List.cons_append, digits]
    split
    case h_1 => exact ih there
    case h_2 =>
      -- the first character that is no decimal digit is a letter
      intro same
      obtain rfl := Option.some.inj same
      exact Bool.false_ne_true here

theorem dotted?_of_noDigit (digit : NoDigit 16 rest) (point : rest.head? ≠ some '.') :
    dotted? rest = none :=
  dotted?_of_hex (List.forall_mem_nil _) digit point

end Gatehouse.Network
