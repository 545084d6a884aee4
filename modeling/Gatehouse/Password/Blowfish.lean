/-
**Blowfish.**

The block cipher with a table that a key fills anew, as the bcrypt hash uses it.

* `Blowfish.initial`: the table before any key, which holds the digits of π;
* `Blowfish.encrypt`: two words under a table;
* `Blowfish.expand`: the table under a key and a salt.
-/

import Gatehouse.Digest.Words

namespace Gatehouse.Blowfish

open Text (Bytes)
open Digest

/-! ### The initial table -/

/-- How many binary digits of the fraction of π the table holds, and how many more are computed. -/
def fractionBits : Nat × Nat := (1042 * 32, 64)

/-- The sum of the first terms of the series of an arctangent of `1 / divisor`, scaled; the power is
the scaled numerator of the next term. -/
def arctangent (divisor : Nat) : (terms : Nat) → (index : Nat) → (power : Nat) → Int
  | 0, _, _ => 0
  | terms + 1, index, power =>
    (power / (2 * index + 1) : Nat) -
      arctangent divisor terms (index + 1) (power / (divisor * divisor))

/-- The binary digits of π, including two before the point. -/
def piDigits : Nat :=
  let scale := Nat.pow 2 (fractionBits.1 + fractionBits.2)
  let terms := (fractionBits.1 + fractionBits.2) / 4
  let sum := 16 * arctangent 5 terms 0 (scale / 5) - 4 * arctangent 239 terms 0 (scale / 239)
  sum.toNat / Nat.pow 2 fractionBits.2

/-- A table: eighteen words for the rounds and four boxes of two hundred and fifty-six words. -/
abbrev Table := Array UInt32

/-- The table before any key: the digits of the fraction of π. -/
def initial : Table :=
  let fraction := piDigits % Nat.pow 2 fractionBits.1
  ((List.range 1042).map fun index =>
    (fraction / Nat.pow 2 (32 * (1041 - index)) % Nat.pow 2 32).toUInt32).toArray

/-! ### Encryption -/

/-- Two words. -/
structure Halves where
  left : UInt32
  right : UInt32
deriving DecidableEq, Repr

/-- The word that the boxes give for a word. -/
@[inline] def boxes (table : Table) (word : UInt32) : UInt32 :=
  let a := table.getD (18 + (word >>> 24).toNat) 0
  let b := table.getD (274 + ((word >>> 16) &&& 0xff).toNat) 0
  let c := table.getD (530 + ((word >>> 8) &&& 0xff).toNat) 0
  let d := table.getD (786 + (word &&& 0xff).toNat) 0
  ((a + b) ^^^ c) + d

/-- So many rounds, beginning with the given one; the halves change places in each. -/
def rounds (table : Table) : (count : Nat) → (index : Nat) → Halves → Halves
  | 0, _, halves => halves
  | count + 1, index, ⟨left, right⟩ =>
    let left := left ^^^ table.getD index 0
    rounds table count (index + 1) ⟨right ^^^ boxes table left, left⟩

def encrypt (table : Table) (halves : Halves) : Halves :=
  let ⟨left, right⟩ := rounds table 16 0 halves
  ⟨right ^^^ table.getD 17 0, left ^^^ table.getD 16 0⟩

/-! ### Keys -/

/-- So many words of bytes that are repeated without end. -/
def cycle (count : Nat) (bytes : Bytes) : List UInt32 :=
  let bytes := bytes.toArray
  (List.range count).map fun index =>
    word32 ((List.range 4).map fun place => bytes.getD ((4 * index + place) % bytes.size) 0)

/-- Fill the table from a pair of words on with so many successive encryptions, each of the pair
before it and two words of the salt. -/
def refill (salt : Array UInt32) : (count : Nat) → (index : Nat) → Halves → Table → Table
  | 0, _, _, table => table
  | count + 1, index, ⟨left, right⟩, table =>
    let next := encrypt table
      ⟨left ^^^ salt.getD (2 * index % 4) 0, right ^^^ salt.getD (2 * index % 4 + 1) 0⟩
    refill salt count (index + 1) next
      ((table.setIfInBounds (2 * index) next.left).setIfInBounds (2 * index + 1) next.right)

def addKey (key : Bytes) (table : Table) : Table :=
  ((cycle 18 key).zipIdx).foldl (fun table (word, index) =>
    table.setIfInBounds index (table.getD index 0 ^^^ word)) table

/-- Fill the table anew under a key and a salt; an empty salt changes nothing. -/
def expand (salt key : Bytes) (table : Table) : Table :=
  let words := if salt.isEmpty then #[] else (cycle 4 salt).toArray
  refill words 521 0 ⟨0, 0⟩ (addKey key table)

end Gatehouse.Blowfish
