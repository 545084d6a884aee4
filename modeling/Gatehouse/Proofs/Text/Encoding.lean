/-
**The bytes of characters.**

A text is encoded character by character. A character below 128 is one byte, its own code; every
byte of any other character is at least 128. So marks that are ASCII characters are found in the
bytes of a text exactly where they stand in the text.

* `Text.encode_ofList`, `Text.encode_append`: the bytes of a text are those of its characters;
* `Text.encode_ascii`: bytes below 128 are their own characters;
* `Text.mem_utf8EncodeChar`: the bytes of a character.
-/

import Gatehouse.Text.Utf8
import Mathlib.Data.List.Basic

namespace Gatehouse.Text

theorem encode_ofList (text : List Char) :
    encode (String.ofList text) = text.flatMap String.utf8EncodeChar := by
  simp [encode, String.toUTF8, List.utf8Encode]

theorem encode_eq (text : String) : encode text = text.toList.flatMap String.utf8EncodeChar := by
  rw [← encode_ofList, String.ofList_toList]

theorem encode_append (before after : String) :
    encode (before ++ after) = encode before ++ encode after := by
  rw [encode_eq, String.toList_append, List.flatMap_append, ← encode_eq, ← encode_eq]

/-- A byte of a character is its code, if that is below 128, or at least 128. -/
theorem mem_utf8EncodeChar {c : Char} {byte : UInt8} (member : byte ∈ String.utf8EncodeChar c) :
    (c.toNat < 128 ∧ byte.toNat = c.toNat) ∨ (128 ≤ c.toNat ∧ 128 ≤ byte.toNat) := by
  have code : c.val.toNat = c.toNat := rfl
  unfold String.utf8EncodeChar at member
  rw [code] at member
  simp only at member
  split at member
  · next small =>
    cases List.mem_singleton.mp member
    exact .inl ⟨by omega, by rw [UInt8.toNat_ofNat']; omega⟩
  · next large =>
    refine .inr ⟨by omega, ?_⟩
    split at member
    · simp only [List.mem_cons, List.not_mem_nil, or_false] at member
      rcases member with rfl | rfl <;> rw [UInt8.toNat_ofNat'] <;> omega
    · split at member
      · simp only [List.mem_cons, List.not_mem_nil, or_false] at member
        rcases member with rfl | rfl | rfl <;> rw [UInt8.toNat_ofNat'] <;> omega
      · simp only [List.mem_cons, List.not_mem_nil, or_false] at member
        rcases member with rfl | rfl | rfl | rfl <;> rw [UInt8.toNat_ofNat'] <;> omega

theorem utf8EncodeChar_of_small {c : Char} (small : c.toNat < 128) :
    String.utf8EncodeChar c = [UInt8.ofNat c.toNat] := by
  unfold String.utf8EncodeChar
  exact if_pos (show c.val.toNat ≤ 0x7f by have : c.val.toNat = c.toNat := rfl; omega)

theorem toNat_ofNat_of_small {code : Nat} (small : code < 128) :
    (Char.ofNat code).toNat = code := by
  have valid : code.isValidChar := .inl (by omega)
  unfold Char.ofNat
  rw [dif_pos valid]
  rfl

/-- Bytes below 128 encode the text with these codes. -/
theorem encode_ascii {bytes : Bytes} (small : ∀ byte ∈ bytes, byte.toNat < 128) :
    encode (String.ofList (bytes.map fun byte => Char.ofNat byte.toNat)) = bytes := by
  rw [encode_ofList]
  induction bytes with
  | nil => rfl
  | cons byte rest ih =>
    obtain ⟨here, there⟩ := List.forall_mem_cons.mp small
    have code := toNat_ofNat_of_small here
    rw [List.map_cons, List.flatMap_cons, utf8EncodeChar_of_small (by omega), ih there, code,
      UInt8.ofNat_toNat]
    rfl

end Gatehouse.Text
