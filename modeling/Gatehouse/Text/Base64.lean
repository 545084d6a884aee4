/-
**Base64.**

Bytes written with the symbols of an alphabet, six bits a symbol, with or without padding.

* `encode`: the written form of bytes;
* `decode`: the bytes of a written form. A form is refused for a byte outside the alphabet, padding
  where it does not belong, a length that leaves six bits over, and set bits after the last byte.
-/

import Gatehouse.Text.Utf8

namespace Gatehouse.Base64

open Text (Bytes)

/-- Why a text is no written form. -/
inductive Fault where
  | invalidByte (offset : Nat) (byte : UInt8)
  | invalidLength
  | invalidLastSymbol (offset : Nat) (symbol : UInt8)
  | invalidPadding
deriving DecidableEq, Repr

def Fault.message : Fault → String
  | .invalidByte offset byte => s!"Invalid byte {byte.toNat}, offset {offset}."
  | .invalidLength => "Encoded text cannot have a 6-bit remainder."
  | .invalidLastSymbol offset symbol => s!"Invalid last symbol {symbol.toNat}, offset {offset}."
  | .invalidPadding => "Invalid padding"

/-- The sixty-four symbols by their values. -/
abbrev Alphabet := List UInt8

/-- Capitals, small letters, digits, plus and slash. -/
def standard : Alphabet :=
  Text.encode "ABCDEFGHIJKLMNOPQRSTUVWXYZabcdefghijklmnopqrstuvwxyz0123456789+/"

/-- The same with hyphen and underscore for plus and slash. -/
def urlSafe : Alphabet :=
  Text.encode "ABCDEFGHIJKLMNOPQRSTUVWXYZabcdefghijklmnopqrstuvwxyz0123456789-_"

def pad : UInt8 := 0x3D

def symbol (alphabet : Alphabet) (value : Nat) : UInt8 := (alphabet[value]?).getD pad

def value? (alphabet : Alphabet) (byte : UInt8) : Option Nat := alphabet.idxOf? byte

/-! ### Writing -/

/-- The six-bit values of bytes, the last one filled up with zeros. -/
def toValues : Bytes → List Nat
  | a :: b :: c :: rest =>
    a.toNat / 4 :: (a.toNat % 4 * 16 + b.toNat / 16) :: (b.toNat % 16 * 4 + c.toNat / 64) ::
      c.toNat % 64 :: toValues rest
  | [a, b] => [a.toNat / 4, a.toNat % 4 * 16 + b.toNat / 16, b.toNat % 16 * 4]
  | [a] => [a.toNat / 4, a.toNat % 4 * 16]
  | [] => []

/-- The written form of bytes; with padding its length is a multiple of four. -/
def encode (alphabet : Alphabet) (padded : Bool) (bytes : Bytes) : Bytes :=
  let symbols := (toValues bytes).map (symbol alphabet)
  if padded then symbols ++ List.replicate ((4 - symbols.length % 4) % 4) pad else symbols

/-! ### Reading -/

/-- The values read, in reverse, and where the padding began and how long it is. -/
structure Symbols where
  values : List Nat
  padding : Nat
  paddingStart : Nat
deriving Repr

/-- Read symbols and padding from the byte at an offset. Padding may begin at the third or fourth
symbol of four and is followed by padding only. -/
def readSymbols (alphabet : Alphabet) (offset : Nat) (read : Symbols) :
    Bytes → Except Fault Symbols
  | [] => .ok read
  | byte :: rest =>
    if byte = pad then
      let start := if read.padding = 0 then offset else read.paddingStart
      if offset % 4 < 2 then .error (.invalidByte start pad)
      else
        let read := { read with padding := read.padding + 1, paddingStart := start }
        readSymbols alphabet (offset + 1) read rest
    else if read.padding ≠ 0 then .error (.invalidByte read.paddingStart pad)
    else match value? alphabet byte with
      | none => .error (.invalidByte offset byte)
      | some value =>
        readSymbols alphabet (offset + 1) { read with values := value :: read.values } rest

/-- The bytes of six-bit values; `none` when bits are set after the last byte or a single value is
left over. -/
def ofValues? : List Nat → Option Bytes
  | a :: b :: c :: d :: rest =>
    (ofValues? rest).map fun bytes =>
      (a * 4 + b / 16).toUInt8 :: (b % 16 * 16 + c / 4).toUInt8 :: (c % 4 * 64 + d).toUInt8 :: bytes
  | [a, b, c] =>
    if c % 4 = 0 then some [(a * 4 + b / 16).toUInt8, (b % 16 * 16 + c / 4).toUInt8] else none
  | [a, b] => if b % 16 = 0 then some [(a * 4 + b / 16).toUInt8] else none
  | [_] => none
  | [] => some []

/-- A length that leaves six bits over is refused first, for its last byte if that is no symbol. -/
def checkLength (alphabet : Alphabet) (bytes : Bytes) : Except Fault Unit :=
  if bytes.length % 4 = 1 then
    match bytes.getLast? with
    | some last =>
      if last ≠ pad ∧ (value? alphabet last).isNone then
        .error (.invalidByte (bytes.length - 1) last)
      else .error .invalidLength
    | none => .error .invalidLength
  else .ok ()

/-- The bytes of a written form, padded to a multiple of four symbols or without any padding. -/
def decode (alphabet : Alphabet) (padded : Bool) (bytes : Bytes) : Except Fault Bytes := do
  checkLength alphabet bytes
  let read ← readSymbols alphabet 0 ⟨[], 0, 0⟩ bytes
  if padded then
    if (read.padding + read.values.length) % 4 ≠ 0 then throw .invalidPadding
  else if read.padding ≠ 0 then throw .invalidPadding
  match ofValues? read.values.reverse with
  | some decoded => return decoded
  | none =>
    let last := read.values.length - 1
    throw (.invalidLastSymbol last ((bytes[last]?).getD pad))

end Gatehouse.Base64
