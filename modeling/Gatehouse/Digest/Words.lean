/-
**Words of bytes.**

Numbers written as bytes in either order, and messages cut into pieces of equal length.

* `ofBytes`, `toBytes`: the most significant byte first;
* `ofLittle`, `toLittle`: the least significant byte first.
-/

import Gatehouse.Text.Utf8

namespace Gatehouse.Digest

open Text (Bytes)

/-- The number of bytes with the least significant one first. -/
def ofLittle : Bytes → Nat
  | [] => 0
  | byte :: rest => byte.toNat + 256 * ofLittle rest

/-- The so many lowest bytes of a number, the least significant one first. -/
def toLittle : (count : Nat) → Nat → Bytes
  | 0, _ => []
  | count + 1, value => (value % 256).toUInt8 :: toLittle count (value / 256)

/-- The number of bytes with the most significant one first. -/
def ofBytes (bytes : Bytes) : Nat := ofLittle bytes.reverse

/-- The so many lowest bytes of a number, the most significant one first. -/
def toBytes (count value : Nat) : Bytes := (toLittle count value).reverse

@[simp] theorem length_toLittle (count value : Nat) : (toLittle count value).length = count := by
  induction count generalizing value with
  | zero => rfl
  | succ count ih => simp [toLittle, ih]

@[simp] theorem length_toBytes (count value : Nat) : (toBytes count value).length = count := by
  simp [toBytes]

/-- Cut off so many pieces of the same size. -/
def pieces {α : Type} (size : Nat) : (count : Nat) → List α → List (List α)
  | 0, _ => []
  | count + 1, items => items.take size :: pieces size count (items.drop size)

/-- The word of four bytes, the most significant one first. -/
def word32 (bytes : Bytes) : UInt32 := (ofBytes bytes).toUInt32

/-- The word of eight bytes, the least significant one first. -/
def word64 (bytes : Bytes) : UInt64 := (ofLittle bytes).toUInt64

@[inline] def rotate32 (word : UInt32) (count : UInt32) : UInt32 :=
  (word >>> count) ||| (word <<< (32 - count))

@[inline] def rotate64 (word : UInt64) (count : UInt64) : UInt64 :=
  (word >>> count) ||| (word <<< (64 - count))

end Gatehouse.Digest
