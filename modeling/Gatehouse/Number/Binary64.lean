/-
**Binary floating point numbers.**

The finite numbers of the 64-bit binary format, as an exact mantissa and exponent, and the number
nearest to a decimal.

* `Binary64.round?`: the nearest representable number of a quotient, a tie going to the even
  mantissa, and nothing when the quotient is too large for the format;
* `Binary64.ofDecimal?`: the same for a decimal, whose exponent may be of any size.
-/

namespace Gatehouse

/-- The number `±mantissa · 2 ^ exponent`. -/
structure Binary64 where
  negative : Bool
  mantissa : Nat
  exponent : Int
deriving DecidableEq, Repr, Inhabited

namespace Binary64

/-- The exponent of the smallest positive number. -/
def leastExponent : Int := -1074

/-- The exponent of the largest numbers. -/
def greatestExponent : Int := 971

/-- The quotient of two numbers, rounded to the nearest integer, a tie to the even one. -/
def divideEven (numerator denominator : Nat) : Nat :=
  let quotient := numerator / denominator
  let twice := 2 * (numerator % denominator)
  if twice < denominator then quotient
  else if denominator < twice then quotient + 1
  else if quotient % 2 = 0 then quotient
  else quotient + 1

/-- Multiply a quotient by `2 ^ (-exponent)`. -/
def scale (numerator denominator : Nat) (exponent : Int) : Nat × Nat :=
  if exponent < 0 then (numerator * Nat.pow 2 exponent.natAbs, denominator)
  else (numerator, denominator * Nat.pow 2 exponent.natAbs)

/-- The exponent under which a positive quotient has 53 binary digits, or the least exponent. -/
def exponentFor (numerator denominator : Nat) : Int :=
  let guess : Int := (numerator.log2 : Int) - denominator.log2 - 52
  let (top, bottom) := scale numerator denominator guess
  max leastExponent (if top < bottom * Nat.pow 2 52 then guess - 1 else guess)

/-- The number nearest to a quotient; `none` beyond the largest number. -/
def round? (negative : Bool) (numerator denominator : Nat) : Option Binary64 :=
  if numerator = 0 then some ⟨negative, 0, leastExponent⟩
  else
    let exponent := exponentFor numerator denominator
    let (top, bottom) := scale numerator denominator exponent
    let mantissa := divideEven top bottom
    let (mantissa, exponent) :=
      if mantissa = Nat.pow 2 53 then (Nat.pow 2 52, exponent + 1) else (mantissa, exponent)
    if greatestExponent < exponent then none else some ⟨negative, mantissa, exponent⟩

/-- The number nearest to `±digits · 10 ^ exponent`; `none` beyond the largest number. -/
def ofDecimal? (negative : Bool) (digits : Nat) (exponent : Int) : Option Binary64 :=
  if digits = 0 then some ⟨negative, 0, leastExponent⟩
  else
    let magnitude : Int := (digits.log2 : Int) * 3 / 10 + exponent
    if 320 < magnitude then none
    else if magnitude < -360 then some ⟨negative, 0, leastExponent⟩
    else if exponent < 0 then round? negative digits (Nat.pow 10 exponent.natAbs)
    else round? negative (digits * Nat.pow 10 exponent.natAbs) 1

/-- The number nearest to an integer. -/
def ofNat? (value : Nat) : Option Binary64 := round? false value 1

/-- Product of two numbers, rounded. -/
def mul? (first second : Binary64) : Option Binary64 :=
  let (top, bottom) := scale (first.mantissa * second.mantissa) 1
    (-(first.exponent + second.exponent))
  round? (first.negative != second.negative) top bottom

end Binary64

end Gatehouse
