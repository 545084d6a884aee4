/-
**Argon2.**

The memory-hard password hash: a memory of blocks is filled, each block from the one before it and
one chosen by earlier contents or by position, and the last blocks give the hash.

* `Block.compress`: one block from two;
* `Argon2.referenceColumn`: which earlier block of a lane is chosen by thirty-two bits;
* `Argon2.hash`: the hash of a password under a salt.
-/

import Gatehouse.Digest.Blake2b

namespace Gatehouse.Argon2

open Text (Bytes)
open Digest

/-! ### Blocks -/

/-- Sixteen words. -/
structure Row where
  w0 : UInt64
  w1 : UInt64
  w2 : UInt64
  w3 : UInt64
  w4 : UInt64
  w5 : UInt64
  w6 : UInt64
  w7 : UInt64
  w8 : UInt64
  w9 : UInt64
  w10 : UInt64
  w11 : UInt64
  w12 : UInt64
  w13 : UInt64
  w14 : UInt64
  w15 : UInt64
deriving DecidableEq

/-- Four words. -/
structure Quad where
  a : UInt64
  b : UInt64
  c : UInt64
  d : UInt64

/-- Add two words and twice the product of their lower halves. -/
@[inline] def blend (x y : UInt64) : UInt64 :=
  x + y + 2 * ((x &&& 0xffffffff) * (y &&& 0xffffffff))

@[inline] def mix (a b c d : UInt64) : Quad :=
  let a := blend a b
  let d := rotate64 (d ^^^ a) 32
  let c := blend c d
  let b := rotate64 (b ^^^ c) 24
  let a := blend a b
  let d := rotate64 (d ^^^ a) 16
  let c := blend c d
  let b := rotate64 (b ^^^ c) 63
  ⟨a, b, c, d⟩

/-- Mix the columns and then the diagonals of a row seen as a square. -/
def Row.permute (r : Row) : Row :=
  let p := mix r.w0 r.w4 r.w8 r.w12
  let q := mix r.w1 r.w5 r.w9 r.w13
  let s := mix r.w2 r.w6 r.w10 r.w14
  let t := mix r.w3 r.w7 r.w11 r.w15
  let u := mix p.a q.b s.c t.d
  let v := mix q.a s.b t.c p.d
  let x := mix s.a t.b p.c q.d
  let y := mix t.a p.b q.c s.d
  ⟨u.a, v.a, x.a, y.a, y.b, u.b, v.b, x.b, x.c, y.c, u.c, v.c, v.d, x.d, y.d, u.d⟩

def Row.xor (x y : Row) : Row :=
  ⟨x.w0 ^^^ y.w0, x.w1 ^^^ y.w1, x.w2 ^^^ y.w2, x.w3 ^^^ y.w3, x.w4 ^^^ y.w4, x.w5 ^^^ y.w5,
  x.w6 ^^^ y.w6, x.w7 ^^^ y.w7, x.w8 ^^^ y.w8, x.w9 ^^^ y.w9, x.w10 ^^^ y.w10, x.w11 ^^^ y.w11,
  x.w12 ^^^ y.w12, x.w13 ^^^ y.w13, x.w14 ^^^ y.w14, x.w15 ^^^ y.w15⟩

def Row.words (r : Row) : List UInt64 :=
  [r.w0, r.w1, r.w2, r.w3, r.w4, r.w5, r.w6, r.w7, r.w8, r.w9, r.w10, r.w11, r.w12, r.w13, r.w14,
  r.w15]

/-- The row of the words from a position on. -/
def Row.ofWords (words : Array UInt64) (start : Nat) : Row :=
  let word (index : Nat) := words.getD (start + index) 0
  ⟨word 0, word 1, word 2, word 3, word 4, word 5, word 6, word 7, word 8, word 9, word 10,
  word 11, word 12, word 13, word 14, word 15⟩

/-- A block: eight rows, which make a hundred and twenty-eight words or a thousand and twenty-four
bytes. -/
structure Block where
  r0 : Row
  r1 : Row
  r2 : Row
  r3 : Row
  r4 : Row
  r5 : Row
  r6 : Row
  r7 : Row
deriving DecidableEq

namespace Block

/-- The block of a list of words; missing words are zero. -/
def ofWords (words : List UInt64) : Block :=
  let words := words.toArray
  let row (index : Nat) := Row.ofWords words (16 * index)
  ⟨row 0, row 1, row 2, row 3, row 4, row 5, row 6, row 7⟩

def zero : Block := ofWords []

def words (b : Block) : List UInt64 :=
  [b.r0, b.r1, b.r2, b.r3, b.r4, b.r5, b.r6, b.r7].flatMap Row.words

def ofBytes (bytes : Bytes) : Block := ofWords ((pieces 8 128 bytes).map word64)

def bytes (b : Block) : Bytes := b.words.flatMap fun word => toLittle 8 word.toNat

def xor (x y : Block) : Block :=
  ⟨x.r0.xor y.r0, x.r1.xor y.r1, x.r2.xor y.r2, x.r3.xor y.r3, x.r4.xor y.r4, x.r5.xor y.r5,
    x.r6.xor y.r6, x.r7.xor y.r7⟩

def permuteRows (b : Block) : Block :=
  ⟨b.r0.permute, b.r1.permute, b.r2.permute, b.r3.permute, b.r4.permute, b.r5.permute,
    b.r6.permute, b.r7.permute⟩

/-- Two words of each row, as a row. -/
@[inline] def column (b : Block) (first second : Row → UInt64) : Row :=
  ⟨first b.r0, second b.r0, first b.r1, second b.r1, first b.r2, second b.r2, first b.r3,
    second b.r3, first b.r4, second b.r4, first b.r5, second b.r5, first b.r6, second b.r6,
    first b.r7, second b.r7⟩

/-- Make columns of word pairs into rows, and rows into columns. -/
def transpose (b : Block) : Block :=
  ⟨b.column Row.w0 Row.w1, b.column Row.w2 Row.w3, b.column Row.w4 Row.w5, b.column Row.w6 Row.w7,
    b.column Row.w8 Row.w9, b.column Row.w10 Row.w11, b.column Row.w12 Row.w13,
    b.column Row.w14 Row.w15⟩

/-- One block from two: permute the rows and then the columns of their sum, and add the sum. -/
def compress (x y : Block) : Block :=
  let sum := x.xor y
  (sum.permuteRows.transpose.permuteRows.transpose).xor sum

end Block

/-! ### Parameters -/

/-- How earlier blocks are chosen: by contents, by position, or by position at first. -/
inductive Variety where
  | dependent
  | independent
  | hybrid
deriving DecidableEq, Repr

def Variety.number : Variety → Nat
  | .dependent => 0
  | .independent => 1
  | .hybrid => 2

/-- The versions of the algorithm; in the first one later passes overwrite the memory. -/
inductive Version where
  | v16
  | v19
deriving DecidableEq, Repr

def Version.number : Version → Nat
  | .v16 => 16
  | .v19 => 19

/-- What a hash depends on besides password and salt. The memory is in kibibytes. -/
structure Parameters where
  variety : Variety
  version : Version
  memory : Nat
  passes : Nat
  lanes : Nat
  associated : Bytes
  length : Nat
deriving DecidableEq, Repr

namespace Parameters

/-- How many blocks a lane fills between two points where lanes may see each other. -/
def segment (p : Parameters) : Nat := max p.memory (8 * p.lanes) / (4 * p.lanes)

def laneLength (p : Parameters) : Nat := 4 * p.segment

end Parameters

/-! ### Filling the memory -/

def number (value : Nat) : Bytes := toLittle 4 value

def counted (bytes : Bytes) : Bytes := number bytes.length ++ bytes

/-- The digest of everything a hash depends on. -/
def seed (p : Parameters) (password salt : Bytes) : Bytes :=
  blake2b 64 <| number p.lanes ++ number p.length ++ number p.memory ++ number p.passes ++
    number p.version.number ++ number p.variety.number ++ counted password ++ counted salt ++
    counted [] ++ counted p.associated

/-- A block of the memory at the beginning of a lane. -/
def firstBlock (seed : Bytes) (column lane : Nat) : Block :=
  .ofBytes (blake2bLong 1024 (seed ++ number column ++ number lane))

def start (p : Parameters) (seed : Bytes) : Array Block :=
  (List.range p.lanes).foldl (fun memory lane =>
    (memory.setIfInBounds (lane * p.laneLength) (firstBlock seed 0 lane)).setIfInBounds
      (lane * p.laneLength + 1) (firstBlock seed 1 lane))
    (Array.replicate (p.lanes * p.laneLength) .zero)

/-- A segment of the memory: the blocks of a lane in one of four slices of a pass. -/
structure Segment where
  pass : Nat
  slice : Nat
  lane : Nat

/-- Whether the blocks of a segment are chosen by position. -/
def Segment.byPosition (s : Segment) : Variety → Bool
  | .dependent => false
  | .independent => true
  | .hybrid => s.pass = 0 && s.slice < 2

/-- The random words of a segment that depend on positions only. -/
def Segment.randomWords (p : Parameters) (s : Segment) : Array UInt64 :=
  ((List.range ((p.segment + 127) / 128)).flatMap fun count =>
    let input := Block.ofWords <| [s.pass, s.lane, s.slice, p.lanes * p.laneLength, p.passes,
      p.variety.number, count + 1].map Nat.toUInt64
    (Block.zero.compress (Block.zero.compress input)).words).toArray

/-- Which earlier block of a lane is chosen: the lower bits are squared, so that recent blocks are
chosen more often. -/
def referenceColumn (p : Parameters) (s : Segment) (index : Nat) (sameLane : Bool) (low : Nat) :
    Nat :=
  let finished := if s.pass = 0 then s.slice * p.segment else p.laneLength - p.segment
  let available :=
    if sameLane then finished + index - 1 else if index = 0 then finished - 1 else finished
  let distance := available * (low * low / Nat.pow 2 32) / Nat.pow 2 32
  let origin := if s.pass = 0 || s.slice = 3 then 0 else (s.slice + 1) * p.segment
  (origin + (available - 1 - distance)) % p.laneLength

def fillBlock (p : Parameters) (s : Segment) (random : Array UInt64) (memory : Array Block)
    (index : Nat) : Array Block :=
  let column := s.slice * p.segment + index
  let previousColumn := if column = 0 then p.laneLength - 1 else column - 1
  let previous := memory.getD (s.lane * p.laneLength + previousColumn) .zero
  let word := if s.byPosition p.variety then random.getD index 0 else previous.r0.w0
  let lane := if s.pass = 0 && s.slice = 0 then s.lane else (word >>> 32).toNat % p.lanes
  let chosen := referenceColumn p s index (lane = s.lane) (word &&& 0xffffffff).toNat
  let reference := memory.getD (lane * p.laneLength + chosen) .zero
  let place := s.lane * p.laneLength + column
  let fresh := previous.compress reference
  let block :=
    if s.pass = 0 || p.version = .v16 then fresh else fresh.xor (memory.getD place .zero)
  memory.setIfInBounds place block

def fillSegment (p : Parameters) (memory : Array Block) (s : Segment) : Array Block :=
  let random := if s.byPosition p.variety then s.randomWords p else #[]
  let first := if s.pass = 0 && s.slice = 0 then 2 else 0
  (List.range' first (p.segment - first)).foldl (fillBlock p s random) memory

/-- The segments in the order in which they are filled. -/
def segments (p : Parameters) : List Segment :=
  (List.range p.passes).flatMap fun pass =>
    (List.range 4).flatMap fun slice => (List.range p.lanes).map fun lane => ⟨pass, slice, lane⟩

def finish (p : Parameters) (memory : Array Block) : Block :=
  (List.range p.lanes).foldl (fun sum lane =>
    sum.xor (memory.getD (lane * p.laneLength + (p.laneLength - 1)) .zero)) .zero

/-- The hash of a password under a salt. -/
def hash (p : Parameters) (password salt : Bytes) : Bytes :=
  let memory := (segments p).foldl (fillSegment p) (start p (seed p password salt))
  blake2bLong p.length (finish p memory).bytes

end Gatehouse.Argon2
