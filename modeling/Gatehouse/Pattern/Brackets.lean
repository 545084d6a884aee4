/-
**Character classes in brackets.**

A class lists characters, ranges of characters, escapes and named sets; a caret in front negates it.

* `Pattern.classSet`: reads a class.
-/

import Gatehouse.Pattern.Escape

namespace Gatehouse

namespace Pattern

/-- What stands before the first of two characters, and what follows them; the name of a set does
not reach beyond the first colon. -/
def namedSet? (text : List Char) : Option (CharSet × List Char) :=
  match text with
  | '[' :: ':' :: rest =>
    let (negated, rest) := match rest with
      | '^' :: rest => (true, rest)
      | _ => (false, rest)
    match Text.splitFirst? ':' rest with
    | some (name, ']' :: rest) =>
      (CharSet.named? (String.ofList name)).map fun chars =>
        (if negated then CharSet.negate chars else chars, rest)
    | _ => none
  | _ => none

def classItem (flags : Flags) : List Char → Except PatternFault (Atom × List Char)
  | [] => .error .classNotClosed
  | '\\' :: rest => escape flags rest
  | c :: rest => .ok (.char c, rest)

/-- The character that follows an item; where blanks do not count, they are passed over with the
first sign that begins a comment, if anything follows them. -/
def peek (flags : Flags) (rest : List Char) : Option Char :=
  if flags.freeSpacing then
    let found := match rest.dropWhile Text.isBlank with
      | '#' :: after => (after.dropWhile Text.isBlank).head?
      | c :: _ => some c
      | [] => none
    found.or rest.head?
  else rest.head?

def Atom.ranges : Atom → Except PatternFault (List (Nat × Nat))
  | .char c => .ok (CharSet.single c)
  | .set chars => .ok chars
  | .look _ => .error .classItem

/-- The character of an item that ends a range. -/
def Atom.rangeEnd : Atom → Except PatternFault Char
  | .char c => .ok c
  | _ => .error .classItem

def classRange (flags : Flags) (text : List Char) :
    Except PatternFault (List (Nat × Nat) × List Char) := do
  let (item, rest) ← classItem flags text
  match flags.skip rest with
  | [] => .error .classNotClosed
  | '-' :: rest =>
    let next := peek flags rest
    if next = some ']' ∨ next = some '-' then return (← item.ranges, '-' :: rest)
    match flags.skip rest with
    | [] => .error .classNotClosed
    | rest =>
      let (last, rest) ← classItem flags rest
      let first ← item.rangeEnd
      let last ← last.rangeEnd
      if last < first then .error .classItem
      return ([(first.toNat, last.toNat)], rest)
  | rest => return (← item.ranges, rest)

def isOperation : List Char → Bool
  | c :: d :: _ => c = d && (c = '&' || c = '-' || c = '~')
  | _ => false

/-- Read the rest of a class; the count bounds the number of items. -/
def classItems (flags : Flags) :
    (count : Nat) → (ranges : List (Nat × Nat)) → List Char →
      Except PatternFault (List (Nat × Nat) × List Char)
  | 0, _, _ => .error .classNotClosed
  | count + 1, ranges, text =>
    match flags.skip text with
    | [] => .error .classNotClosed
    | ']' :: rest => .ok (ranges, rest)
    | '[' :: rest =>
      match namedSet? ('[' :: rest) with
      | some (chars, rest) => classItems flags count (ranges ++ chars) rest
      | none => .error .classOperation
    | text =>
      if isOperation text then .error .classOperation
      else match classRange flags text with
        | .error fault => .error fault
        | .ok (more, rest) => classItems flags count (ranges ++ more) rest

/-- The hyphens at the front of a class, which stand for themselves. -/
def leadingHyphens (flags : Flags) : (count : Nat) → List Char → List (Nat × Nat) × List Char
  | count + 1, '-' :: rest =>
    let (ranges, rest) := leadingHyphens flags count (flags.skip rest)
    (CharSet.single '-' ++ ranges, rest)
  | _, text => ([], text)

/-- Read a class after its opening bracket. A bracket that closes it does not stand first. -/
def classSet (flags : Flags) (text : List Char) : Except PatternFault (CharSet × List Char) := do
  let text := flags.skip text
  let (negated, text) := match text with
    | '^' :: rest => (true, flags.skip rest)
    | _ => (false, text)
  let (hyphens, text) := leadingHyphens flags text.length text
  let (first, text) := match hyphens, text with
    | [], ']' :: rest => (CharSet.single ']', flags.skip rest)
    | _, _ => (hyphens, text)
  let (ranges, rest) ← classItems flags (text.length + 1) first text
  let chars := CharSet.ofRanges ranges
  let chars := if flags.ignoreCase then CharSet.foldCase chars else chars
  return (if negated then CharSet.negate chars else chars, rest)

end Pattern

end Gatehouse
