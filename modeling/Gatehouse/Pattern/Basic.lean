/-
**Patterns.**

Regular expressions with tests of the surroundings, and where they match in a text.

* `Pattern.ends`: the positions where a match that begins at a position can end;
* `Pattern.isMatch`: whether a pattern matches some part of a text;
* `Pattern.Matches`: the same as a relation between positions.
-/

import Gatehouse.Pattern.CharSet

namespace Gatehouse

/-- A test of the surroundings of a position. -/
inductive Look where
  | start
  | finish
  | lineStart
  | lineFinish
  | lineStartCrlf
  | lineFinishCrlf
  | wordBoundary
  | notWordBoundary
  | wordStart
  | wordFinish
  | wordStartHalf
  | wordFinishHalf
deriving DecidableEq, Repr

/-- A pattern. -/
inductive Pattern where
  | empty
  | set (chars : CharSet)
  | look (test : Look)
  | append (first second : Pattern)
  | or (first second : Pattern)
  /-- So many times, up to a limit if there is one. -/
  | repeated (inner : Pattern) (least : Nat) (most : Option Nat)
deriving DecidableEq, Repr

/-! ### Surroundings -/

namespace Look

def isWord (c : Option Char) : Bool := c.any CharSet.wordChars.contains

/-- Whether a test holds between two characters; there is none before a text or after it. -/
def holds (before after : Option Char) : Look → Bool
  | start => before.isNone
  | finish => after.isNone
  | lineStart => before.isNone || before = some '\n'
  | lineFinish => after.isNone || after = some '\n'
  | lineStartCrlf =>
    before.isNone || before = some '\n' || (before = some '\r' && after ≠ some '\n')
  | lineFinishCrlf => after.isNone || after = some '\r' || (after = some '\n' && before ≠ some '\r')
  | wordBoundary => isWord before != isWord after
  | notWordBoundary => isWord before == isWord after
  | wordStart => !isWord before && isWord after
  | wordFinish => isWord before && !isWord after
  | wordStartHalf => !isWord before
  | wordFinishHalf => !isWord after

end Look

namespace Pattern

def before? (text : Array Char) (position : Nat) : Option Char :=
  if position = 0 then none else text[position - 1]?

/-! ### Matching as a relation -/

/-- Any number of steps of a relation. -/
inductive Steps (step : Nat → Nat → Prop) : Nat → Nat → Nat → Prop where
  | none (position : Nat) : Steps step 0 position position
  | one {count first middle last : Nat} (here : step first middle)
      (rest : Steps step count middle last) : Steps step (count + 1) first last

/-- Whether a pattern matches a text from one position to another. -/
def Matches (text : Array Char) : Pattern → Nat → Nat → Prop
  | empty, first, last => first = last
  | set chars, first, last =>
    ∃ c, text[first]? = some c ∧ chars.contains c = true ∧ last = first + 1
  | look test, first, last => first = last ∧ test.holds (before? text first) text[first]? = true
  | append left right, first, last =>
    ∃ middle, Matches text left first middle ∧ Matches text right middle last
  | or left right, first, last => Matches text left first last ∨ Matches text right first last
  | repeated inner least most, first, last =>
    ∃ count, least ≤ count ∧ (∀ limit ∈ most, count ≤ limit) ∧
      Steps (Matches text inner) count first last

/-! ### Matching by lists of positions -/

def insert (x : Nat) : List Nat → List Nat
  | [] => [x]
  | y :: rest =>
    if x < y then x :: y :: rest else if x = y then y :: rest else y :: insert x rest

def merge (first second : List Nat) : List Nat :=
  first.foldl (fun merged x => insert x merged) second

/-- Where a step from any of the positions leads. -/
def stepAll (step : Nat → List Nat) (positions : List Nat) : List Nat :=
  positions.foldl (fun reached position => merge (step position) reached) []

def stepTimes (step : Nat → List Nat) : (count : Nat) → List Nat → List Nat
  | 0, positions => positions
  | count + 1, positions =>
    if positions.isEmpty then [] else stepTimes step count (stepAll step positions)

/-- Where at most so many further steps lead, given what has been reached and, of that, what was
reached by the last step. -/
def stepUpTo (step : Nat → List Nat) : (count : Nat) → (reached latest : List Nat) → List Nat
  | 0, reached, _ => reached
  | count + 1, reached, latest =>
    let fresh := (stepAll step latest).filter fun position => !reached.contains position
    if fresh.isEmpty then reached else stepUpTo step count (merge fresh reached) fresh

/-- Where a match that begins at a position can end, in ascending order. More repetitions than there
are characters reach nothing new. -/
def ends (text : Array Char) : Pattern → Nat → List Nat
  | empty, position => [position]
  | set chars, position =>
    match text[position]? with
    | some c => if chars.contains c then [position + 1] else []
    | none => []
  | look test, position =>
    if test.holds (before? text position) text[position]? then [position] else []
  | append first second, position => stepAll (ends text second) (ends text first position)
  | or first second, position => merge (ends text first position) (ends text second position)
  | repeated inner least most, position =>
    let further := match most with
      | some limit => min (limit - least) text.size
      | none => text.size
    let reached := stepTimes (ends text inner) least [position]
    stepUpTo (ends text inner) further reached reached

/-- Whether a pattern matches some part of a text. -/
def isMatch (pattern : Pattern) (text : String) : Bool :=
  let chars := text.toList.toArray
  (List.range (chars.size + 1)).any fun start => !(ends chars pattern start).isEmpty

/-- Whether a pattern matches the empty text wherever its tests hold. -/
def matchesEmpty : Pattern → Bool
  | empty => true
  | set _ => false
  | look _ => true
  | append first second => matchesEmpty first && matchesEmpty second
  | or first second => matchesEmpty first || matchesEmpty second
  | repeated inner least _ => least = 0 || matchesEmpty inner

end Pattern

end Gatehouse
