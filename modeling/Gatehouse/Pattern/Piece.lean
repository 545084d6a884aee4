/-
**Pieces of patterns.**

A piece is a pattern together with what limits count: how deeply it is nested, and how much memory
its automaton takes.

* `Piece.sequence`, `Piece.choice`, `Piece.repetition`, `Piece.capture`: pieces from pieces.
-/

import Gatehouse.Pattern.Basic

namespace Gatehouse

namespace Pattern

/-- A pattern read so far, how deeply it is nested, and how much memory its automaton takes. -/
structure Piece where
  pattern : Pattern
  depth : Nat
  cost : Nat
deriving Repr

/-- How deeply patterns and groups may be nested. -/
def maxDepth : Nat := 50

/-- How much memory an automaton may take. -/
def maxCost : Nat := 10 * Nat.pow 2 20

/-- The memory of a state, of a branch that leaves it, and of a range of characters. -/
def unitCosts : Nat × Nat × Nat := (32, 4, 8)

namespace Piece

def empty : Piece := ⟨.empty, 0, unitCosts.1⟩

def char (c : Char) : Piece := ⟨.set (CharSet.single c), 0, unitCosts.1⟩

def set (chars : CharSet) : Piece :=
  ⟨.set chars, 0, unitCosts.1 + chars.length * unitCosts.2.2⟩

def look (test : Look) : Piece := ⟨.look test, 0, unitCosts.1⟩

def depths (pieces : List Piece) : Nat := pieces.foldl (fun depth piece => max depth piece.depth) 0

def costs (pieces : List Piece) : Nat := pieces.foldl (fun cost piece => cost + piece.cost) 0

def sequence : List Piece → Piece
  | [] => empty
  | [piece] => piece
  | piece :: rest =>
    ⟨rest.foldl (fun whole piece => .append whole piece.pattern) piece.pattern,
      depths (piece :: rest) + 1, costs (piece :: rest)⟩

def choice : List Piece → Piece
  | [] => empty
  | [piece] => piece
  | piece :: rest =>
    ⟨rest.foldl (fun whole piece => .or whole piece.pattern) piece.pattern,
      depths (piece :: rest) + 1,
      costs (piece :: rest) + 2 * unitCosts.1 + (rest.length + 1) * unitCosts.2.1⟩

/-- The cost of so many copies. -/
def copies (count cost : Nat) : Nat := if count = 0 then unitCosts.1 else count * cost

def repeatCost (piece : Piece) (least : Nat) : Option Nat → Nat
  | none =>
    if least = 0 then
      if piece.pattern.matchesEmpty then piece.cost + 3 * unitCosts.1 + 4 * unitCosts.2.1
      else piece.cost + unitCosts.1 + 2 * unitCosts.2.1
    else least * piece.cost + unitCosts.1 + 2 * unitCosts.2.1
  | some most =>
    if least = most then copies least piece.cost
    else if most = 1 then piece.cost + 2 * unitCosts.1 + 2 * unitCosts.2.1
    else copies least piece.cost + unitCosts.1 +
      (most - least) * (piece.cost + unitCosts.1 + 2 * unitCosts.2.1)

/-- A repetition; none at all is the empty text, and exactly one is the piece itself. -/
def repetition (piece : Piece) (least : Nat) (most : Option Nat) : Piece :=
  if most = some 0 then empty
  else if least = 1 ∧ most = some 1 then piece
  else ⟨.repeated piece.pattern least most, piece.depth + 1, repeatCost piece least most⟩

/-- A group that remembers what it matches, which does not change what matches. -/
def capture (piece : Piece) : Piece :=
  ⟨piece.pattern, piece.depth + 1, piece.cost + 2 * unitCosts.1⟩

end Piece

end Pattern

end Gatehouse
