/-
**The shortest decimal of a binary number.**

Of the decimals that read back as a given binary number, the one with the fewest digits, and of
those the nearest; and the text it is written as.

* `Binary64.shortest`: digits and exponent of that decimal;
* `Binary64.toText`: the decimal written in the style of `plainStyle`.
-/

import Gatehouse.Number.Binary64

namespace Gatehouse.Binary64

/-- The decimals that read back as a number, as multiples of `1 / scale`. -/
structure Neighbourhood where
  value : Nat
  lower : Nat
  upper : Nat
  scale : Nat
  closed : Bool

/-- The neighbourhood of a positive number: half the way to the next number on each side. -/
def neighbourhood (number : Binary64) : Neighbourhood :=
  let m := number.mantissa
  let narrow := m = Nat.pow 2 52 ∧ leastExponent < number.exponent
  let value := 4 * m
  let lower := if narrow then 4 * m - 1 else 4 * m - 2
  let upper := 4 * m + 2
  let exponent := number.exponent - 2
  if exponent < 0 then ⟨value, lower, upper, Nat.pow 2 exponent.natAbs, m % 2 = 0⟩
  else
    let factor := Nat.pow 2 exponent.natAbs
    ⟨value * factor, lower * factor, upper * factor, 1, m % 2 = 0⟩

/-- The decimal `digits · 10 ^ exponent` lies in the neighbourhood. -/
def Neighbourhood.contains (around : Neighbourhood) (digits : Nat) (exponent : Int) : Bool :=
  let (point, unit) :=
    if exponent < 0 then (digits * around.scale, Nat.pow 10 exponent.natAbs)
    else (digits * around.scale * Nat.pow 10 exponent.natAbs, 1)
  let low := around.lower * unit
  let high := around.upper * unit
  if around.closed then low ≤ point && point ≤ high else low < point && point < high

/-- The number of decimal places before the point: the least `n` with `value < 10 ^ n`. -/
def Neighbourhood.magnitude (around : Neighbourhood) : Int :=
  let guess : Int := (((around.value.log2 : Int) - around.scale.log2) * 30103) / 100000 - 1
  let below (n : Int) : Bool :=
    if n < 0 then around.value * Nat.pow 10 n.natAbs < around.scale
    else around.value < around.scale * Nat.pow 10 n.natAbs
  if below guess then guess
  else if below (guess + 1) then guess + 1
  else if below (guess + 2) then guess + 2
  else guess + 3

/-- The digits nearest below the value on the grid of `10 ^ exponent`, and whether the value is
nearer to the next point of the grid. -/
def Neighbourhood.gridPoint (around : Neighbourhood) (exponent : Int) : Nat × Bool :=
  let (top, bottom) :=
    if exponent < 0 then (around.value * Nat.pow 10 exponent.natAbs, around.scale)
    else (around.value, around.scale * Nat.pow 10 exponent.natAbs)
  let digits := top / bottom
  let twice := 2 * (top % bottom)
  (digits, bottom < twice || (twice = bottom && digits % 2 = 1))

/-- Try the grids of `count` more digit numbers, coarsest first. -/
def Neighbourhood.search (around : Neighbourhood) (magnitude : Int) (length : Nat) :
    Nat → Nat × Int
  | 0 =>
    let exponent := magnitude - length
    let (digits, up) := around.gridPoint exponent
    (if up then digits + 1 else digits, exponent)
  | count + 1 =>
    let exponent := magnitude - length
    let (digits, up) := around.gridPoint exponent
    let below := around.contains digits exponent
    let above := around.contains (digits + 1) exponent
    if below && above then (if up then digits + 1 else digits, exponent)
    else if below then (digits, exponent)
    else if above then (digits + 1, exponent)
    else around.search magnitude (length + 1) count

/-- Drop the zeros at the end of a number's decimal digits, at most `count` of them. -/
def dropZeros (digits : Nat) (exponent : Int) : Nat → Nat × Int
  | 0 => (digits, exponent)
  | count + 1 =>
    if digits ≠ 0 ∧ digits % 10 = 0 then dropZeros (digits / 10) (exponent + 1) count
    else (digits, exponent)

/-- The shortest decimal of a number's absolute value, as digits and exponent. -/
def shortest (number : Binary64) : Nat × Int :=
  if number.mantissa = 0 then (0, 0)
  else
    let around := number.neighbourhood
    let (digits, exponent) := around.search around.magnitude 1 16
    dropZeros digits exponent 17

/-! ### Writing -/

/-- Where positional notation ends, counted in places before the decimal point. -/
structure DecimalStyle where
  /-- The greatest number of places before the point that is still written out. -/
  widest : Int
  /-- The greatest number of zeros after the point that is still written out. -/
  smallest : Int

/-- Up to 21 places before the point and up to five zeros after it are written out. -/
def plainStyle : DecimalStyle := ⟨21, 5⟩

/-- The absolute value of a decimal in a style, always with a point or an exponent. -/
def writeDecimal (style : DecimalStyle) (digits : Nat) (exponent : Int) : String :=
  let written := (toString digits).toList
  let length : Int := written.length
  let places := length + exponent
  if 0 < places ∧ places ≤ style.widest then
    if 0 ≤ exponent then
      String.ofList (written ++ List.replicate exponent.toNat '0' ++ ['.', '0'])
    else
      String.ofList (written.take places.toNat ++ '.' :: written.drop places.toNat)
  else if places ≤ 0 ∧ -places ≤ style.smallest then
    String.ofList ('0' :: '.' :: (List.replicate places.natAbs '0' ++ written))
  else
    let mark := if places ≤ 0 then '-' else '+'
    let power := (toString (places - 1).natAbs).toList
    match written with
    | [] => "0.0"
    | [digit] => String.ofList (digit :: 'e' :: mark :: power)
    | first :: others => String.ofList (first :: '.' :: others ++ 'e' :: mark :: power)

/-- The shortest text that reads back as the number. -/
def toText (number : Binary64) : String :=
  let (digits, exponent) := number.shortest
  let text := if digits = 0 then "0.0" else writeDecimal plainStyle digits exponent
  if number.negative then "-" ++ text else text

end Gatehouse.Binary64
