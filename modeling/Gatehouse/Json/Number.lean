/-
**Numbers of JSON.**

* `Number.parse?`: reading a number by the grammar;
* `Number.value?`: its value: an exact integer of 64 bits where it is one, otherwise a binary
  floating point number, and nothing when it is beyond the largest of these.
-/

import Gatehouse.Text.Utf8
import Gatehouse.Number.Binary64

namespace Gatehouse.Json

open Text (Bytes)

/-- A number as written: sign, digits before and after the point, and exponent. -/
structure Number where
  negative : Bool
  whole : List Nat
  fraction : Option (List Nat)
  exponent : Option Int
deriving DecidableEq, Repr

namespace Number

def digit? (byte : UInt8) : Option Nat :=
  if 0x30 ≤ byte && byte ≤ 0x39 then some (byte.toNat - 0x30) else none

def digits : Bytes → List Nat × Bytes
  | [] => ([], [])
  | byte :: rest =>
    match digit? byte with
    | some value => let (others, left) := digits rest; (value :: others, left)
    | none => ([], byte :: rest)

def exponent? : Bytes → Option (Option Int)
  | [] => some none
  | mark :: rest =>
    if mark = 0x65 || mark = 0x45 then
      let (negative, rest) := match rest with
        | 0x2D :: rest => (true, rest)
        | 0x2B :: rest => (false, rest)
        | rest => (false, rest)
      match digits rest with
      | ([], _) => none
      | (values, []) =>
        let value : Nat := values.foldl (fun value digit => value * 10 + digit) 0
        some (some (if negative then -(value : Int) else value))
      | _ => none
    else none

/-- Read a number: no leading zeros, digits on both sides of a point. -/
def parse? (letters : Bytes) : Option Number :=
  let (negative, rest) := match letters with
    | 0x2D :: rest => (true, rest)
    | rest => (false, rest)
  let (whole, rest) := digits rest
  if whole.isEmpty || (whole.length > 1 && whole.head? == some 0) then none
  else match rest with
    | 0x2E :: rest =>
      let (fraction, rest) := digits rest
      if fraction.isEmpty then none
      else (exponent? rest).map fun exponent => ⟨negative, whole, some fraction, exponent⟩
    | rest => (exponent? rest).map fun exponent => ⟨negative, whole, none, exponent⟩

/-- The value of a number: an integer of 64 bits, or a floating point number. -/
inductive Value where
  | int (value : Int)
  | float (value : Binary64)
deriving DecidableEq, Repr

def maxWord : Nat := Nat.pow 2 64 - 1

/-- Take in digits as long as the significand fits 64 bits; the count of digits left out. -/
def takeDigits (significand : Nat) : List Nat → Nat × Nat
  | [] => (significand, 0)
  | digit :: rest =>
    if significand * 10 + digit ≤ maxWord then takeDigits (significand * 10 + digit) rest
    else (significand, rest.length + 1)

/-- The greatest power of ten that one multiplication or division takes. -/
def widestPower : Nat := 308

/-- `value · 10 ^ exponent`, rounded after each multiplication or division by a power of ten that
is itself rounded. -/
def scaleByTen (value : Binary64) (exponent : Int) : Option Binary64 :=
  let power (n : Nat) : Binary64 := (Binary64.ofDecimal? false 1 n).getD default
  let divide (first second : Binary64) : Option Binary64 :=
    let (top, bottom) := Binary64.scale first.mantissa second.mantissa
      (second.exponent - first.exponent)
    Binary64.round? first.negative top bottom
  if value.mantissa = 0 then some value
  else if 0 ≤ exponent then
    if exponent ≤ widestPower then value.mul? (power exponent.toNat) else none
  else if exponent.natAbs ≤ widestPower then divide value (power exponent.natAbs)
  else do
    let once ← divide value (power widestPower)
    let left := exponent.natAbs - widestPower
    if left ≤ widestPower then divide once (power left)
    else some ⟨value.negative, 0, Binary64.leastExponent⟩

/-- The value of a number; `none` beyond the largest floating point number. An integer that is too
long for 64 bits, a number with a fraction or an exponent, and a negative zero are floating point
numbers, computed from the leading digits that fit 64 bits and a power of ten. -/
def value? (number : Number) : Option Value :=
  let (significand, skipped) := takeDigits 0 number.whole
  let asFloat (significand : Nat) (exponent : Int) : Option Value := do
    let whole ← Binary64.ofNat? significand
    let scaled ← scaleByTen whole exponent
    return .float { scaled with negative := number.negative }
  match number.fraction, number.exponent with
  | none, none =>
    if skipped ≠ 0 then asFloat significand skipped
    else if number.negative then
      if significand = 0 ∨ Nat.pow 2 63 < significand then asFloat significand 0
      else some (.int (-(significand : Int)))
    else some (.int significand)
  | fraction, exponent =>
    let places := fraction.getD []
    let (significand, left) := takeDigits significand places
    asFloat significand (skipped + exponent.getD 0 - (places.length - left : Nat))

end Number

end Gatehouse.Json
