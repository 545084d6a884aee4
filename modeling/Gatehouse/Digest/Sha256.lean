/-
**SHA-256.**

The digest of thirty-two bytes, and the keyed digest built on it.

* `sha256`: the digest of a message;
* `hmacSha256`: the digest of a message under a key.
-/

import Gatehouse.Digest.Words

namespace Gatehouse.Digest

open Text (Bytes)

namespace Sha256

/-- The eight words that are carried from block to block. -/
structure State where
  a : UInt32
  b : UInt32
  c : UInt32
  d : UInt32
  e : UInt32
  f : UInt32
  g : UInt32
  h : UInt32
deriving DecidableEq, Repr

def start : State :=
  ⟨0x6a09e667, 0xbb67ae85, 0x3c6ef372, 0xa54ff53a, 0x510e527f, 0x9b05688c, 0x1f83d9ab, 0x5be0cd19⟩

/-- The constants of the sixty-four rounds. -/
def constants : List UInt32 :=
  [0x428a2f98, 0x71374491, 0xb5c0fbcf, 0xe9b5dba5, 0x3956c25b, 0x59f111f1, 0x923f82a4, 0xab1c5ed5,
   0xd807aa98, 0x12835b01, 0x243185be, 0x550c7dc3, 0x72be5d74, 0x80deb1fe, 0x9bdc06a7, 0xc19bf174,
   0xe49b69c1, 0xefbe4786, 0x0fc19dc6, 0x240ca1cc, 0x2de92c6f, 0x4a7484aa, 0x5cb0a9dc, 0x76f988da,
   0x983e5152, 0xa831c66d, 0xb00327c8, 0xbf597fc7, 0xc6e00bf3, 0xd5a79147, 0x06ca6351, 0x14292967,
   0x27b70a85, 0x2e1b2138, 0x4d2c6dfc, 0x53380d13, 0x650a7354, 0x766a0abb, 0x81c2c92e, 0x92722c85,
   0xa2bfe8a1, 0xa81a664b, 0xc24b8b70, 0xc76c51a3, 0xd192e819, 0xd6990624, 0xf40e3585, 0x106aa070,
   0x19a4c116, 0x1e376c08, 0x2748774c, 0x34b0bcb5, 0x391c0cb3, 0x4ed8aa4a, 0x5b9cca4f, 0x682e6ff3,
   0x748f82ee, 0x78a5636f, 0x84c87814, 0x8cc70208, 0x90befffa, 0xa4506ceb, 0xbef9a3f7, 0xc67178f2]

/-- The next word of the schedule after the sixteen words before it. -/
def extend (window : List UInt32) : UInt32 :=
  let word (index : Nat) := (window[index]?).getD 0
  let low := word 1
  let high := word 14
  word 0 + (rotate32 low 7 ^^^ rotate32 low 18 ^^^ (low >>> 3)) + word 9 +
    (rotate32 high 17 ^^^ rotate32 high 19 ^^^ (high >>> 10))

/-- So many words of the schedule, given the first sixteen of them. -/
def schedule : (count : Nat) → List UInt32 → List UInt32
  | 0, _ => []
  | count + 1, window =>
    (window.head?).getD 0 :: schedule count (window.drop 1 ++ [extend window])

def round (s : State) (keyed : UInt32 × UInt32) : State :=
  let choice := (s.e &&& s.f) ^^^ (~~~s.e &&& s.g)
  let majority := (s.a &&& s.b) ^^^ (s.a &&& s.c) ^^^ (s.b &&& s.c)
  let first := s.h + (rotate32 s.e 6 ^^^ rotate32 s.e 11 ^^^ rotate32 s.e 25) + choice +
    keyed.1 + keyed.2
  let second := (rotate32 s.a 2 ^^^ rotate32 s.a 13 ^^^ rotate32 s.a 22) + majority
  ⟨first + second, s.a, s.b, s.c, s.d + first, s.e, s.f, s.g⟩

def absorb (s : State) (block : Bytes) : State :=
  let words := (pieces 4 16 block).map word32
  let t := (constants.zip (schedule 64 words)).foldl round s
  ⟨s.a + t.a, s.b + t.b, s.c + t.c, s.d + t.d, s.e + t.e, s.f + t.f, s.g + t.g, s.h + t.h⟩

/-- A message followed by a set bit, zeros up to a whole number of blocks, and its length in
bits. -/
def pad (message : Bytes) : Bytes :=
  message ++ 0x80 :: List.replicate ((119 - message.length % 64) % 64) 0 ++
    toBytes 8 (message.length * 8)

def State.bytes (s : State) : Bytes :=
  [s.a, s.b, s.c, s.d, s.e, s.f, s.g, s.h].flatMap fun word => toBytes 4 word.toNat

end Sha256

def sha256 (message : Bytes) : Bytes :=
  let padded := Sha256.pad message
  ((pieces 64 (padded.length / 64) padded).foldl Sha256.absorb Sha256.start).bytes

/-- A key filled up with zeros to a block; a longer key is replaced by its digest. -/
def blockKey (key : Bytes) : Bytes :=
  let short := if 64 < key.length then sha256 key else key
  short ++ List.replicate (64 - short.length) 0

/-- The digest of a message under a key. -/
def hmacSha256 (key message : Bytes) : Bytes :=
  let key := blockKey key
  sha256 (key.map (· ^^^ 0x5c) ++ sha256 (key.map (· ^^^ 0x36) ++ message))

-- a published case of the standard
example : hmacSha256 (Text.encode "Jefe") (Text.encode "what do ya want for nothing?") =
    toBytes 32 0x5bdcc146bf60754e6a042426089575c75a003f089d2739839dec58b964ec3843 := by
  decide +kernel

end Gatehouse.Digest
