/-
**Sets of characters.**

A set of characters is a list of ranges of code points. The operations keep the ranges ascending,
and apart from each other.

* `CharSet.ofRanges`: the set of any ranges;
* `CharSet.negate`: all other characters;
* `CharSet.foldCase`: the set with the ASCII letters of the other case.
-/

import Gatehouse.Text.CodePoints

namespace Gatehouse

/-- A set of characters as ranges of code points, both ends included. -/
abbrev CharSet := Text.Ranges

namespace CharSet

def greatest : Nat := 0x10FFFF

/-- Join ranges, in ascending order of their beginnings, that overlap or touch. -/
def join : List (Nat × Nat) → List (Nat × Nat)
  | [] => []
  | range :: rest =>
    match join rest with
    | [] => [range]
    | next :: others =>
      if next.1 ≤ range.2 + 1 then (range.1, max range.2 next.2) :: others
      else range :: next :: others

def ofRanges (ranges : List (Nat × Nat)) : CharSet :=
  join (ranges.mergeSort fun first second =>
    first.1 < second.1 || (first.1 = second.1 && first.2 ≤ second.2))

/-- The gaps between ranges, from a code point on. -/
def gaps (start : Nat) : List (Nat × Nat) → List (Nat × Nat)
  | [] => if start ≤ greatest then [(start, greatest)] else []
  | (first, last) :: rest =>
    if start < first then (start, first - 1) :: gaps (last + 1) rest else gaps (last + 1) rest

def negate (set : CharSet) : CharSet := gaps 0 set

/-- The part of a range within another one, moved up or down. -/
def shifted (within : Nat × Nat) (move : Nat → Nat) (range : Nat × Nat) : List (Nat × Nat) :=
  let first := max within.1 range.1
  let last := min within.2 range.2
  if first ≤ last then [(move first, move last)] else []

/-- The set with the ASCII letters of the other case. -/
def foldCase (set : CharSet) : CharSet :=
  ofRanges (set ++ set.flatMap (shifted (65, 90) (· + 32)) ++
    set.flatMap (shifted (97, 122) (· - 32)))

def single (c : Char) : CharSet := [(c.toNat, c.toNat)]

def all : CharSet := [(0, greatest)]

def digits : CharSet := [(48, 57)]

def spaces : CharSet := [(9, 13), (32, 32)]

def wordChars : CharSet := [(48, 57), (65, 90), (95, 95), (97, 122)]

/-- The named sets, all of ASCII characters. -/
def named : List (String × CharSet) :=
  [("alnum", [(48, 57), (65, 90), (97, 122)]), ("alpha", [(65, 90), (97, 122)]),
   ("ascii", [(0, 127)]), ("blank", [(9, 9), (32, 32)]), ("cntrl", [(0, 31), (127, 127)]),
   ("digit", digits), ("graph", [(33, 126)]), ("lower", [(97, 122)]), ("print", [(32, 126)]),
   ("punct", [(33, 47), (58, 64), (91, 96), (123, 126)]), ("space", spaces),
   ("upper", [(65, 90)]), ("word", wordChars), ("xdigit", [(48, 57), (65, 70), (97, 102)])]

def named? (name : String) : Option CharSet := (named.find? fun entry => entry.1 = name).map (·.2)

end CharSet

end Gatehouse
