/-
**The written form of patterns.**

A pattern is read by a machine that keeps the open groups as a stack of frames; each step reads one
item of the pattern. Since a step looks at the innermost group only, a pattern is read inside a
group as it is read alone.

* `Pattern.parse`: the pattern of a text.
-/

import Gatehouse.Pattern.Brackets
import Gatehouse.Pattern.Group

namespace Gatehouse

namespace Pattern

/-- The alternatives of a group read so far, and the items of the current one, each the last one
first. -/
structure Branches where
  finished : List Piece
  items : List Piece

def Branches.start : Branches := ⟨[], []⟩

def Branches.piece (branches : Branches) : Piece :=
  .choice (branches.finished.reverse ++ [.sequence branches.items.reverse])

def Branches.split (branches : Branches) : Branches :=
  ⟨.sequence branches.items.reverse :: branches.finished, []⟩

def Branches.add (piece : Piece) (branches : Branches) : Branches :=
  { branches with items := piece :: branches.items }

/-- An open group: what was read before it, the flags that hold after it, and whether it remembers
what it matches. -/
structure Frame where
  outer : Branches
  flags : Flags
  captures : Bool

/-- The state of reading: the innermost open group, the flags, the open groups around it, and the
names of groups. -/
structure Machine where
  branches : Branches
  flags : Flags
  frames : List Frame
  names : List (List Char)

namespace Machine

def start : Machine := ⟨.start, .plain, [], []⟩

def add (piece : Piece) (machine : Machine) : Machine :=
  { machine with branches := machine.branches.add piece }

def openGroup (flags : Flags) (captures : Bool) (machine : Machine) : Except PatternFault Machine :=
  if maxDepth ≤ machine.frames.length then .error .nesting
  else .ok { machine with
    branches := .start, flags := flags,
    frames := ⟨machine.branches, machine.flags, captures⟩ :: machine.frames }

/-- Do what an opening parenthesis begins. -/
def enter (machine : Machine) : Opening → Except PatternFault Machine
  | .flags flags => .ok { machine with flags := flags }
  | .plain flags => machine.openGroup flags false
  | .capture none => machine.openGroup machine.flags true
  | .capture (some name) =>
    if machine.names.contains name then .error .groupName
    else openGroup machine.flags true { machine with names := name :: machine.names }

def close (machine : Machine) : Except PatternFault Machine :=
  match machine.frames with
  | [] => .error .groupNotOpen
  | frame :: frames =>
    let piece := machine.branches.piece
    let piece := if frame.captures then piece.capture else piece
    .ok { machine with branches := frame.outer.add piece, flags := frame.flags, frames := frames }

def repeatLast (least : Nat) (most : Option Nat) (machine : Machine) :
    Except PatternFault Machine :=
  match machine.branches.items with
  | [] => .error .nothingToRepeat
  | piece :: items =>
    .ok { machine with
      branches := { machine.branches with items := piece.repetition least most :: items } }

/-- Any character, but for the ends of lines where they do not count. -/
def dot (flags : Flags) : Piece :=
  .set <| if flags.dotAll then CharSet.all
    else if flags.crlf then CharSet.negate [(10, 10), (13, 13)]
    else CharSet.negate [(10, 10)]

def caret (flags : Flags) : Look :=
  if flags.multiLine then if flags.crlf then .lineStartCrlf else .lineStart else .start

def dollar (flags : Flags) : Look :=
  if flags.multiLine then if flags.crlf then .lineFinishCrlf else .lineFinish else .finish

def step (machine : Machine) (c : Char) (rest : List Char) :
    Except PatternFault (Machine × List Char) :=
  match c with
  | '(' => do
    let (opened, rest) ← opening machine.flags rest
    return (← machine.enter opened, rest)
  | ')' => do return (← machine.close, rest)
  | '|' => .ok ({ machine with branches := machine.branches.split }, rest)
  | '[' => do
    let (chars, rest) ← classSet machine.flags rest
    return (machine.add (.set chars), rest)
  | '?' => do return (← machine.repeatLast 0 (some 1), skipLazy rest)
  | '*' => do return (← machine.repeatLast 0 none, skipLazy rest)
  | '+' => do return (← machine.repeatLast 1 none, skipLazy rest)
  | '{' => do
    if machine.branches.items.isEmpty then .error .nothingToRepeat
    let ((least, most), rest) ← bounds machine.flags rest
    return (← machine.repeatLast least most, rest)
  | '\\' => do
    let (atom, rest) ← escape machine.flags rest
    return (machine.add atom.piece, rest)
  | '.' => .ok (machine.add (dot machine.flags), rest)
  | '^' => .ok (machine.add (.look (caret machine.flags)), rest)
  | '$' => .ok (machine.add (.look (dollar machine.flags)), rest)
  | c => .ok (machine.add (machine.flags.atom c).piece, rest)

/-- Read a text to its end; the count bounds the number of items. -/
def run : (count : Nat) → Machine → List Char → Except PatternFault Machine
  | 0, machine, _ => .ok machine
  | count + 1, machine, text =>
    match machine.flags.skip text with
    | [] => .ok machine
    | c :: rest =>
      match machine.step c rest with
      | .error fault => .error fault
      | .ok (machine, rest) => run count machine rest

def finish (machine : Machine) : Except PatternFault Piece :=
  if machine.frames.isEmpty then .ok machine.branches.piece else .error .groupNotClosed

end Machine

/-- The cost of the automaton of a whole pattern. -/
def Piece.totalCost (piece : Piece) : Nat := piece.cost + 3 * unitCosts.1

/-- The piece of a text, within the limits of depth and memory. -/
def readPiece (text : List Char) : Except PatternFault Piece := do
  let machine ← Machine.run text.length .start text
  let piece ← machine.finish
  if maxDepth < piece.depth then .error .nesting
  if maxCost < piece.totalCost then .error .size
  return piece

def parse (text : String) : Except PatternFault Pattern :=
  (readPiece text.toList).map (·.pattern)

end Pattern

end Gatehouse
