/-
**The curve P-256.**

Points with coordinates below a prime that satisfy `y² = x³ - 3x + b`, and the point at infinity.

* `Point.add`, `Point.scale`: the group of the points;
* `Point.ofBytes?`: reads a point from its two coordinates.
-/

import Gatehouse.Digest.Words
import Gatehouse.Signature.Modular

namespace Gatehouse.P256

open Text (Bytes)
open Digest (ofBytes)

def prime : Nat := 0xffffffff00000001000000000000000000000000ffffffffffffffffffffffff

/-- The constant term of the curve. -/
def constant : Nat := 0x5ac635d8aa3a93e7b3ebbd55769886bc651d06b0cc53b0f63bce3c3e27d2604b

def order : Nat := 0xffffffff00000000ffffffffffffffffbce6faada7179e84f3b9cac2fc632551

def sub (first second : Nat) : Nat := (first + (prime - second % prime)) % prime

/-- A quotient modulo a prime: the inverse of a number is its power to the prime less two. -/
def divide (modulus first second : Nat) : Nat :=
  first * Signature.powMod modulus second (modulus - 2) % modulus

/-- A point. -/
inductive Point where
  | infinity
  | affine (x y : Nat)
deriving DecidableEq, Repr

namespace Point

def generator : Point :=
  .affine 0x6b17d1f2e12c4247f8bce6e563a440f277037d812deb33a0f4a13945d898c296
    0x4fe342e2fe1a7f9b8ee7eb4a7c0f9e162bce33576b315ececbb6406837bf51f5

/-- Whether coordinates belong to a point. -/
def isOnCurve (x y : Nat) : Bool :=
  x < prime && y < prime && y * y % prime = (sub (x * x * x) (3 * x) + constant) % prime

/-- The third point on a line of the given slope through two points, reflected. -/
def third (slope x y x' : Nat) : Point :=
  let x'' := sub (sub (slope * slope) x) x'
  .affine x'' (sub (slope * sub x x'') y)

def add : Point → Point → Point
  | .infinity, second => second
  | first, .infinity => first
  | .affine x y, .affine x' y' =>
    if x ≠ x' then third (divide prime (sub y' y) (sub x' x)) x y x'
    else if (y + y') % prime = 0 then .infinity
    else third (divide prime (sub (3 * x * x) 3) (2 * y)) x y x'

/-- The multiple of a point by a number of at most so many binary digits. -/
def scaleBits (point : Point) : (bits : Nat) → (factor : Nat) → Point
  | 0, _ => .infinity
  | bits + 1, factor =>
    let half := scaleBits point bits (factor / 2)
    let double := half.add half
    if factor % 2 = 1 then double.add point else double

def scale (factor : Nat) (point : Point) : Point := scaleBits point (factor.log2 + 1) factor

/-- The point of a byte four and two coordinates of thirty-two bytes. -/
def ofBytes? : Bytes → Option Point
  | 0x04 :: coordinates =>
    let x := ofBytes (coordinates.take 32)
    let y := ofBytes (coordinates.drop 32)
    if coordinates.length = 64 && isOnCurve x y then some (.affine x y) else none
  | _ => none

end Point

end Gatehouse.P256
