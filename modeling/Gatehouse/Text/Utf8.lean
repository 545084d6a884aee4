/-
**Texts as bytes.**

The UTF-8 form of a text, as a list of bytes.

* `decode?_encode`: a text is read back from its bytes.
-/

namespace Gatehouse.Text

/-- A string of bytes. -/
abbrev Bytes := List UInt8

/-- The UTF-8 bytes of a text. -/
def encode (text : String) : Bytes := text.toUTF8.data.toList

/-- The text with the given UTF-8 bytes; ill-formed bytes have none. -/
def decode? (bytes : Bytes) : Option String := String.fromUTF8? ⟨bytes.toArray⟩

theorem decode?_encode (text : String) : decode? (encode text) = some text := by
  unfold decode? encode
  have same : (⟨text.toUTF8.data.toList.toArray⟩ : ByteArray) = text.toUTF8 := by
    simp
  rw [same]
  unfold String.fromUTF8?
  rw [dif_pos (by exact text.isValidUTF8)]
  rfl

theorem encode_of_decode? {bytes : Bytes} {text : String} (decoded : decode? bytes = some text) :
    encode text = bytes := by
  unfold decode? String.fromUTF8? at decoded
  split at decoded
  · cases decoded
    simp [encode, String.fromUTF8, String.toUTF8]
  · cases decoded

/-- Two lower-case hexadecimal digits a byte. -/
def hex (bytes : Bytes) : String :=
  let digit (n : Nat) : Char := if n < 10 then Char.ofNat (48 + n) else Char.ofNat (87 + n)
  String.ofList (bytes.flatMap fun byte => [digit (byte.toNat / 16), digit (byte.toNat % 16)])

end Gatehouse.Text
