/-
**Bytes in base64.**

Every sequence of bytes has exactly one written form, with padding and without it: what is written is
read back, and whatever can be read is what is written.

* `Base64.IsReadable`: an alphabet whose symbols have their values and are not the padding byte;
* `Base64.ofValues?_toValues`, `Base64.toValues_of_ofValues?`: six-bit values make up the bytes again,
  and bytes that they make up have these values;
* `Base64.readSymbols_written`, `Base64.of_readSymbols`: symbols and padding, read and refused;
* `Base64.decode_eq_ok_iff_readSymbols`: what a text must be like to be read;
* **`Base64.decode_eq_ok_iff`**: the texts that can be read are the written forms;
* `Base64.mem_of_decode`: a text that can be read without padding holds nothing but symbols.
-/

import Gatehouse.Text.Base64
import Mathlib.Data.List.Basic

namespace Gatehouse.Base64

open Text (Bytes)

/-! ### Six-bit values -/

theorem lt_of_mem_toValues {bytes : Bytes} : ∀ value ∈ toValues bytes, value < 64 := by
  have bound (byte : UInt8) : byte.toNat < 256 := byte.toNat_lt
  fun_induction toValues bytes with
  | case1 a b c rest ih =>
    have := bound a
    have := bound b
    have := bound c
    simp only [List.mem_cons, forall_eq_or_imp]
    exact ⟨by omega, by omega, by omega, by omega, ih⟩
  | case2 a b =>
    have := bound a
    have := bound b
    simp only [List.mem_cons, List.not_mem_nil, or_false, forall_eq_or_imp, forall_eq]
    exact ⟨by omega, by omega, by omega⟩
  | case3 a =>
    have := bound a
    simp only [List.mem_cons, List.not_mem_nil, or_false, forall_eq_or_imp, forall_eq]
    exact ⟨by omega, by omega⟩
  | case4 => exact fun value impossible => (List.not_mem_nil impossible).elim

/-- No six bits are left over by the values of bytes. -/
theorem length_toValues_mod (bytes : Bytes) : (toValues bytes).length % 4 ≠ 1 := by
  fun_induction toValues bytes with
  | case1 a b c rest ih =>
    simp only [List.length_cons]
    omega
  | case2 a b => exact Nat.succ_succ_ne_one 1
  | case3 a => exact Nat.succ_succ_ne_one 0
  | case4 => exact Nat.zero_ne_one

theorem toUInt8_eq (byte : UInt8) {value : Nat} (same : value % 256 = byte.toNat) :
    value.toUInt8 = byte := by
  refine UInt8.toNat_inj.mp ?_
  rw [Nat.toUInt8, UInt8.toNat_ofNat', same]

/-- The values of bytes make up the bytes again. -/
theorem ofValues?_toValues (bytes : Bytes) : ofValues? (toValues bytes) = some bytes := by
  have bound (byte : UInt8) : byte.toNat < 256 := byte.toNat_lt
  fun_induction toValues bytes with
  | case1 a b c rest ih =>
    have := bound a
    have := bound b
    have := bound c
    rw [ofValues?, ih, Option.map_some, toUInt8_eq a (by omega), toUInt8_eq b (by omega),
      toUInt8_eq c (by omega)]
  | case2 a b =>
    have := bound a
    have := bound b
    rw [ofValues?, if_pos (by omega), toUInt8_eq a (by omega), toUInt8_eq b (by omega)]
  | case3 a =>
    have := bound a
    rw [ofValues?, if_pos (by omega), toUInt8_eq a (by omega)]
  | case4 => rfl

/-- Bytes that values make up have these values. -/
theorem toValues_of_ofValues? {values : List Nat} {bytes : Bytes} (made : ofValues? values = some bytes)
    (small : ∀ value ∈ values, value < 64) : toValues bytes = values := by
  have byte {value : Nat} (small : value < 256) : value.toUInt8.toNat = value := by
    rw [Nat.toUInt8, UInt8.toNat_ofNat', Nat.mod_eq_of_lt small]
  fun_induction ofValues? values generalizing bytes with
  | case1 a b c d rest ih =>
    obtain ⟨others, inner, rfl⟩ := Option.map_eq_some_iff.mp made
    simp only [List.mem_cons, forall_eq_or_imp] at small
    obtain ⟨a64, b64, c64, d64, small⟩ := small
    rw [toValues, byte (by omega), byte (by omega), byte (by omega), ih inner small]
    simp only [List.cons.injEq, and_true]
    omega
  | case2 a b c rounded =>
    cases made
    simp only [List.mem_cons, List.not_mem_nil, or_false, forall_eq_or_imp, forall_eq] at small
    rw [toValues, byte (by omega), byte (by omega)]
    simp only [List.cons.injEq, and_true]
    omega
  | case3 => cases made
  | case4 a b rounded =>
    cases made
    simp only [List.mem_cons, List.not_mem_nil, or_false, forall_eq_or_imp, forall_eq] at small
    rw [toValues, byte (by omega)]
    simp only [List.cons.injEq, and_true]
    omega
  | case5 => cases made
  | case6 => cases made
  | case7 => cases made; rfl

/-! ### Symbols -/

/-- Every symbol of an alphabet has its value and is not the padding byte. -/
def IsReadable (alphabet : Alphabet) : Prop :=
  ∀ value < 64, value? alphabet (symbol alphabet value) = some value ∧ symbol alphabet value ≠ pad

theorem isReadable_urlSafe : IsReadable urlSafe := by
  unfold IsReadable
  decide +kernel

theorem isReadable_standard : IsReadable standard := by
  unfold IsReadable
  decide +kernel

theorem length_urlSafe : urlSafe.length = 64 := by decide +kernel

theorem length_standard : standard.length = 64 := by decide +kernel

variable {alphabet : Alphabet}

/-- A byte with a value is the symbol of this value. -/
theorem symbol_of_value? {byte : UInt8} {value : Nat} (known : value? alphabet byte = some value) :
    value < alphabet.length ∧ symbol alphabet value = byte := by
  obtain ⟨inside, same, _⟩ := List.findIdx?_eq_some_iff_getElem.mp known
  refine ⟨inside, ?_⟩
  rw [symbol, List.getElem?_eq_getElem inside, Option.getD_some]
  exact eq_of_beq same

/-- Padding from the third symbol of four on, of which some may have been read before. -/
theorem readSymbols_padding {count : Nat} (offset before start : Nat) (read : List Nat)
    (placed : ∀ k < count, 2 ≤ (offset + k) % 4) :
    ∃ start', readSymbols alphabet offset ⟨read, before, start⟩ (List.replicate count pad) =
      .ok ⟨read, before + count, start'⟩ := by
  induction count generalizing offset before start with
  | zero => exact ⟨start, rfl⟩
  | succ count ih =>
    have here := placed 0 (Nat.succ_pos _)
    rw [Nat.add_zero] at here
    rw [List.replicate_succ, readSymbols, if_pos rfl, if_neg (by omega)]
    obtain ⟨start', same⟩ := ih (offset + 1) (before + 1)
      (if before = 0 then offset else start) fun k small => by
        have := placed (k + 1) (by omega)
        omega
    exact ⟨start', by rw [same, Nat.add_right_comm, Nat.add_assoc]⟩

/-- The symbols of values, and then padding from the third symbol of four on, are read as these values
with this padding. -/
theorem readSymbols_written (readable : IsReadable alphabet) {values : List Nat}
    (small : ∀ value ∈ values, value < 64) {count : Nat} (offset start : Nat) (read : List Nat)
    (placed : ∀ k < count, 2 ≤ (offset + values.length + k) % 4) :
    ∃ start', readSymbols alphabet offset ⟨read, 0, start⟩
      (values.map (symbol alphabet) ++ List.replicate count pad) =
        .ok ⟨values.reverse ++ read, count, start'⟩ := by
  induction values generalizing offset read with
  | nil =>
    obtain ⟨start', same⟩ := readSymbols_padding offset 0 start read placed
    exact ⟨start', by rw [List.map_nil, List.nil_append, same, Nat.zero_add]; rfl⟩
  | cons value rest ih =>
    obtain ⟨here, there⟩ := List.forall_mem_cons.mp small
    obtain ⟨known, unpadded⟩ := readable value here
    rw [List.map_cons, List.cons_append, readSymbols, if_neg unpadded, if_neg (fun padded => padded rfl),
      known]
    obtain ⟨start', same⟩ := ih there (offset + 1) (value :: read) fun k small => by
      have := placed k small
      rw [List.length_cons] at this
      omega
    exact ⟨start', by rw [List.reverse_cons, List.append_assoc]; exact same⟩

/-- Whatever is read consists of symbols, and then of padding from the third symbol of four on. -/
theorem of_readSymbols {offset : Nat} {read result : Symbols} {text : Bytes}
    (accepted : readSymbols alphabet offset read text = .ok result) :
    ∃ values count, text = values.map (symbol alphabet) ++ List.replicate count pad ∧
      result.values = values.reverse ++ read.values ∧ result.padding = read.padding + count ∧
      (∀ value ∈ values, value? alphabet (symbol alphabet value) = some value) ∧
      (read.padding ≠ 0 → values = []) ∧ ∀ k < count, 2 ≤ (offset + values.length + k) % 4 := by
  induction text generalizing offset read with
  | nil =>
    cases accepted
    exact ⟨[], 0, rfl, rfl, rfl, nofun, fun _ => rfl, nofun⟩
  | cons byte rest ih =>
    rw [readSymbols] at accepted
    split at accepted
    · next padded =>
      subst padded
      simp only at accepted
      split at accepted
      · cases accepted
      · next place =>
        -- padding is followed by padding only
        obtain ⟨values, count, split, valuesEq, paddingEq, _, unpadded, placed⟩ := ih accepted
        obtain rfl := unpadded (Nat.succ_ne_zero _)
        refine ⟨[], count + 1, by rw [split]; rfl, valuesEq, by rw [paddingEq]; dsimp only; omega,
          nofun, fun _ => rfl, fun k small => ?_⟩
        cases k with
        | zero => exact Nat.not_lt.mp place
        | succ k =>
          have := placed k (by omega)
          simp only [List.length_nil] at this ⊢
          omega
    · split at accepted
      · cases accepted
      · next none_yet =>
        split at accepted
        · cases accepted
        · next value known =>
          obtain ⟨_, symbolEq⟩ := symbol_of_value? known
          obtain ⟨values, count, split, valuesEq, paddingEq, knowns, _, placed⟩ := ih accepted
          refine ⟨value :: values, count, by rw [split, List.map_cons, symbolEq]; rfl,
            by rw [valuesEq, List.reverse_cons, List.append_assoc]; rfl, paddingEq,
            List.forall_mem_cons.mpr ⟨by rw [symbolEq]; exact known, knowns⟩,
            fun padded => (none_yet padded).elim, fun k small => ?_⟩
          have := placed k small
          rw [List.length_cons]
          omega

/-! ### Written forms -/

/-- The padding that makes a number of symbols a multiple of four. -/
def paddingOf (padded : Bool) (symbols : Nat) : Nat := if padded then (4 - symbols % 4) % 4 else 0

theorem encode_eq (alphabet : Alphabet) (padded : Bool) (bytes : Bytes) :
    encode alphabet padded bytes = (toValues bytes).map (symbol alphabet) ++
      List.replicate (paddingOf padded (toValues bytes).length) pad := by
  cases padded with
  | false => exact (List.append_nil _).symm
  | true =>
    rw [← List.length_map (f := symbol alphabet)]
    rfl

theorem length_encode_mod (alphabet : Alphabet) (padded : Bool) (bytes : Bytes) :
    (encode alphabet padded bytes).length % 4 ≠ 1 := by
  have left := length_toValues_mod bytes
  rw [encode_eq, List.length_append, List.length_map, List.length_replicate]
  unfold paddingOf
  split <;> omega

/-- The padding of a written form stands from the third symbol of four on, and there is no other
amount of such padding that makes a text whole. -/
theorem eq_paddingOf_iff {padded : Bool} {symbols count : Nat} (left : symbols % 4 ≠ 1) :
    count = paddingOf padded symbols ↔ (∀ k < count, 2 ≤ (0 + symbols + k) % 4) ∧
      if padded then (count + symbols) % 4 = 0 else count = 0 := by
  unfold paddingOf
  cases padded with
  | false =>
    simp only [Bool.false_eq_true, if_false]
    exact ⟨fun zero => ⟨fun k small => by omega, zero⟩, And.right⟩
  | true =>
    rw [if_pos rfl, if_pos rfl]
    constructor
    · rintro rfl
      exact ⟨fun k small => by omega, by omega⟩
    · rintro ⟨placed, full⟩
      have few : count < 3 := by
        by_contra many
        have := placed 0 (by omega)
        have := placed 1 (by omega)
        have := placed 2 (by omega)
        omega
      omega

/-- What a text must be like to be read. -/
theorem decode_eq_ok_iff_readSymbols {padded : Bool} {text bytes : Bytes} :
    decode alphabet padded text = .ok bytes ↔ text.length % 4 ≠ 1 ∧
      ∃ read, readSymbols alphabet 0 ⟨[], 0, 0⟩ text = .ok read ∧
        (if padded then (read.padding + read.values.length) % 4 = 0 else read.padding = 0) ∧
        ofValues? read.values.reverse = some bytes := by
  unfold decode
  by_cases whole : text.length % 4 = 1
  · have refused : ∃ fault, checkLength alphabet text = .error fault := by
      rw [checkLength, if_pos whole]
      split
      · split <;> exact ⟨_, rfl⟩
      · exact ⟨_, rfl⟩
    obtain ⟨fault, refused⟩ := refused
    rw [refused]
    exact iff_of_false (fun accepted => by cases accepted) fun accepted => accepted.1 whole
  · have checked : checkLength alphabet text = .ok () := if_neg whole
    rw [checked]
    cases readSymbols alphabet 0 ⟨[], 0, 0⟩ text with
    | error fault => simp [bind, Except.bind]
    | ok read =>
      simp only [whole, ne_eq, not_false_eq_true, true_and, Except.ok.injEq, exists_eq_left']
      cases padded with
      | true =>
        by_cases full : (read.padding + read.values.length) % 4 = 0 <;>
          cases made : ofValues? read.values.reverse <;>
          simp [bind, Except.bind, pure, Except.pure, full, made]
      | false =>
        by_cases full : read.padding = 0 <;> cases made : ofValues? read.values.reverse <;>
          simp [bind, Except.bind, pure, Except.pure, full, made]

/-- **The texts that can be read are the written forms**, with padding and without it. -/
theorem decode_eq_ok_iff (readable : IsReadable alphabet) (sized : alphabet.length = 64)
    {padded : Bool} {text bytes : Bytes} :
    decode alphabet padded text = .ok bytes ↔ text = encode alphabet padded bytes := by
  rw [decode_eq_ok_iff_readSymbols]
  constructor
  · rintro ⟨whole, read, symbols, full, made⟩
    obtain ⟨values, count, split, valuesEq, paddingEq, knowns, _, placed⟩ := of_readSymbols symbols
    rw [List.append_nil] at valuesEq
    rw [valuesEq, List.reverse_reverse] at made
    have small : ∀ value ∈ values, value < 64 := fun value member =>
      sized ▸ (symbol_of_value? (knowns value member)).1
    have left : values.length % 4 ≠ 1 := by
      intro one
      rw [split, List.length_append, List.length_map, List.length_replicate] at whole
      have := placed 0
      omega
    have padding : count = paddingOf padded values.length := by
      refine (eq_paddingOf_iff left).mpr ⟨placed, ?_⟩
      simpa only [paddingEq, Nat.zero_add, valuesEq, List.length_reverse] using full
    rw [encode_eq, toValues_of_ofValues? made small, split, ← padding]
  · rintro rfl
    obtain ⟨placed, full⟩ := (eq_paddingOf_iff (length_toValues_mod bytes)).mp
      (Eq.refl (paddingOf padded _))
    obtain ⟨start, read⟩ := readSymbols_written readable lt_of_mem_toValues 0 0 [] placed
    rw [← encode_eq] at read
    refine ⟨length_encode_mod _ _ _, _, read, ?_, ?_⟩
    · simpa using full
    · rw [List.append_nil, List.reverse_reverse]
      exact ofValues?_toValues bytes

/-- A text that can be read without padding holds nothing but symbols. -/
theorem mem_of_decode (readable : IsReadable alphabet) (sized : alphabet.length = 64)
    {text bytes : Bytes} (accepted : decode alphabet false text = .ok bytes) :
    ∀ byte ∈ text, (value? alphabet byte).isSome = true := by
  obtain rfl := (decode_eq_ok_iff readable sized).mp accepted
  intro byte member
  obtain ⟨value, written, rfl⟩ := List.mem_map.mp
    (show byte ∈ (toValues bytes).map (symbol alphabet) from member)
  rw [(readable value (lt_of_mem_toValues value written)).1]
  rfl

end Gatehouse.Base64
