/-
**BLAKE2b.**

The digest of one to sixty-four bytes over sixty-four-bit words, and its extension to any length.

* `blake2b`: a digest of the given length;
* `blake2bLong`: any number of bytes drawn from a message.
-/

import Gatehouse.Digest.Words

namespace Gatehouse.Digest

open Text (Bytes)

namespace Blake2b

def start : List UInt64 :=
  [0x6a09e667f3bcc908, 0xbb67ae8584caa73b, 0x3c6ef372fe94f82b, 0xa54ff53a5f1d36f1,
   0x510e527fade682d1, 0x9b05688c2b3e6c1f, 0x1f83d9abfb41bd6b, 0x5be0cd19137e2179]

/-- The order in which the rounds take the words of a message; the rounds after the tenth begin
again. -/
def orders : List (List Nat) :=
  [[0, 1, 2, 3, 4, 5, 6, 7, 8, 9, 10, 11, 12, 13, 14, 15],
   [14, 10, 4, 8, 9, 15, 13, 6, 1, 12, 0, 2, 11, 7, 5, 3],
   [11, 8, 12, 0, 5, 2, 15, 13, 10, 14, 3, 6, 7, 1, 9, 4],
   [7, 9, 3, 1, 13, 12, 11, 14, 2, 6, 5, 10, 4, 0, 15, 8],
   [9, 0, 5, 7, 2, 4, 10, 15, 14, 1, 11, 12, 6, 8, 3, 13],
   [2, 12, 6, 10, 0, 11, 8, 3, 4, 13, 7, 5, 15, 14, 1, 9],
   [12, 5, 1, 15, 14, 13, 4, 10, 0, 7, 6, 3, 9, 2, 8, 11],
   [13, 11, 7, 14, 12, 1, 3, 9, 5, 0, 15, 4, 8, 6, 2, 10],
   [6, 15, 14, 9, 11, 3, 0, 8, 12, 2, 13, 7, 1, 4, 10, 5],
   [10, 2, 8, 4, 7, 6, 1, 5, 15, 11, 9, 14, 3, 12, 13, 0],
   [0, 1, 2, 3, 4, 5, 6, 7, 8, 9, 10, 11, 12, 13, 14, 15],
   [14, 10, 4, 8, 9, 15, 13, 6, 1, 12, 0, 2, 11, 7, 5, 3]]

/-- Four positions that are mixed. -/
abbrev Place := Fin 16 × Fin 16 × Fin 16 × Fin 16

def placeOf (i j k l : Nat) : Place :=
  let position (n : Nat) : Fin 16 := ⟨n % 16, Nat.mod_lt n (Nat.zero_lt_succ 15)⟩
  (position i, position j, position k, position l)

/-- The positions mixed by the eight steps of a round: columns first, then diagonals. -/
def places : List Place :=
  [placeOf 0 4 8 12, placeOf 1 5 9 13, placeOf 2 6 10 14, placeOf 3 7 11 15,
   placeOf 0 5 10 15, placeOf 1 6 11 12, placeOf 2 7 8 13, placeOf 3 4 9 14]

/-- Mix two words of the message into four words of the working state. -/
def mix (v : Vector UInt64 16) (place : Place) (x y : UInt64) :
    Vector UInt64 16 :=
  let (i, j, k, l) := place
  let a := v[i] + v[j] + x
  let d := rotate64 (v[l] ^^^ a) 32
  let c := v[k] + d
  let b := rotate64 (v[j] ^^^ c) 24
  let a := a + b + y
  let d := rotate64 (d ^^^ a) 16
  let c := c + d
  let b := rotate64 (b ^^^ c) 63
  (((v.set i a).set j b).set k c).set l d

/-- The steps of a round, with the order of its words. -/
def steps (words : Array UInt64) :
    List Place → List Nat → Vector UInt64 16 → Vector UInt64 16
  | place :: places, x :: y :: order, v =>
    steps words places order (mix v place (words.getD x 0) (words.getD y 0))
  | _, _, v => v

/-- Take in a block, given how many bytes of the message have been read with it and whether it is
the last one. -/
def absorb (state : List UInt64) (block : Bytes) (read : Nat) (last : Bool) : List UInt64 :=
  let filled := block ++ List.replicate (128 - block.length) 0
  let words := ((pieces 8 16 filled).map word64).toArray
  let flags : List UInt64 :=
    [(read % Nat.pow 2 64).toUInt64, (read / Nat.pow 2 64).toUInt64,
      if last then 0xffffffffffffffff else 0, 0]
  let tail := (start.drop 4).zipWith (· ^^^ ·) flags
  let initial := (state ++ start.take 4 ++ tail).toArray
  let v : Vector UInt64 16 := Vector.ofFn fun index => initial.getD index.val 0
  let mixed := (orders.foldl (fun v order => steps words places order v) v).toList
  state.zipWith (· ^^^ ·) ((mixed.take 8).zipWith (· ^^^ ·) (mixed.drop 8))

/-- Take in a message, block by block; the last block may be short, and is empty only if the message
is. The count bounds the number of blocks. -/
def absorbAll : (count : Nat) → List UInt64 → Nat → Bytes → List UInt64
  | 0, state, _, _ => state
  | count + 1, state, read, message =>
    if message.length ≤ 128 then absorb state message (read + message.length) true
    else
      absorbAll count (absorb state (message.take 128) (read + 128) false) (read + 128)
        (message.drop 128)

end Blake2b

/-- The digest of a message, `length` bytes long. -/
def blake2b (length : Nat) (message : Bytes) : Bytes :=
  let parameters : List UInt64 := [0x01010000 ^^^ length.toUInt64, 0, 0, 0, 0, 0, 0, 0]
  let state := Blake2b.start.zipWith (· ^^^ ·) parameters
  let words := Blake2b.absorbAll (message.length / 128 + 1) state 0 message
  (words.flatMap fun word => toLittle 8 word.toNat).take length

namespace Blake2b

/-- Digests of digests: the first half of each but the last, which is whole. -/
def chain : (count : Nat) → (last : Nat) → Bytes → Bytes
  | 0, last, digest => blake2b last digest
  | count + 1, last, digest =>
    let next := blake2b 64 digest
    next.take 32 ++ chain count last next

end Blake2b

/-- Bytes of any number drawn from a message. -/
def blake2bLong (length : Nat) (message : Bytes) : Bytes :=
  let message := toLittle 4 length ++ message
  if length ≤ 64 then blake2b length message
  else
    let count := (length + 31) / 32 - 2
    let first := blake2b 64 message
    first.take 32 ++ Blake2b.chain (count - 1) (length - 32 * count) first

end Gatehouse.Digest
