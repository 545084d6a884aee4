/-
**Faults, flags and escapes of patterns.**

Why a text is no pattern, how flags change the reading of what follows, and what escapes stand for.

* `PatternFault.message`: the wording of faults;
* `Pattern.escape`: reads an escape.
-/

import Gatehouse.Pattern.Piece
import Gatehouse.Text.Blank
import Gatehouse.Text.Split

namespace Gatehouse

/-- Why a text is no pattern. -/
inductive PatternFault where
  | groupNotOpen
  | groupNotClosed
  | groupName
  | flags
  | lookAround
  | nothingToRepeat
  | repetition
  | escape
  | backReference
  | classNotClosed
  | classItem
  | classOperation
  | nesting
  | size
deriving DecidableEq, Repr

def PatternFault.message : PatternFault → String
  | .groupNotOpen => "found a closing parenthesis without an opening one"
  | .groupNotClosed => "found an opening parenthesis without a closing one"
  | .groupName => "invalid name of a group"
  | .flags => "invalid flags"
  | .lookAround => "look-around is not supported"
  | .nothingToRepeat => "found a repetition of nothing"
  | .repetition => "invalid counted repetition"
  | .escape => "invalid escape"
  | .backReference => "backreferences are not supported"
  | .classNotClosed => "found a character class that is not closed"
  | .classItem => "invalid item in a character class"
  | .classOperation => "operations on character classes are not supported"
  | .nesting => "pattern has too much nesting"
  | .size => "pattern is too big"

namespace Pattern

/-! ### Flags and blanks -/

/-- How the following text is read. -/
structure Flags where
  ignoreCase : Bool
  multiLine : Bool
  dotAll : Bool
  crlf : Bool
  /-- Whether blanks and comments between items do not count. -/
  freeSpacing : Bool
deriving DecidableEq, Repr

def Flags.plain : Flags := ⟨false, false, false, false, false⟩

/-- What follows blanks and comments; a comment ends with its line. -/
def skipSpace : (inComment : Bool) → List Char → List Char
  | _, [] => []
  | true, c :: rest => skipSpace (c ≠ '\n') rest
  | false, c :: rest =>
    if Text.isBlank c then skipSpace false rest
    else if c = '#' then skipSpace true rest
    else c :: rest

/-- What follows blanks and comments, where they do not count. -/
def Flags.skip (flags : Flags) (text : List Char) : List Char :=
  if flags.freeSpacing then skipSpace false text else text

/-! ### Escapes -/

/-- What a character or an escape stands for. -/
inductive Atom where
  | char (c : Char)
  | set (chars : CharSet)
  | look (test : Look)
deriving DecidableEq, Repr

def Atom.piece : Atom → Piece
  | .char c => .char c
  | .set chars => .set chars
  | .look test => .look test

/-- The atom of a character; where case does not count, a letter stands for both cases. -/
def Flags.atom (flags : Flags) (c : Char) : Atom :=
  if flags.ignoreCase && c.isAlpha then .set (CharSet.foldCase (CharSet.single c)) else .char c

/-- Characters that an escape makes ordinary: all of ASCII but letters, digits and angle
brackets. -/
def isEscapable (c : Char) : Bool := c.toNat < 128 && !c.isAlphanum && c ≠ '<' && c ≠ '>'

def hexDigit? (c : Char) : Option Nat :=
  if '0' ≤ c ∧ c ≤ '9' then some (c.toNat - 48)
  else if 'a' ≤ c ∧ c ≤ 'f' then some (c.toNat - 87)
  else if 'A' ≤ c ∧ c ≤ 'F' then some (c.toNat - 55)
  else none

def charOf? (value : Nat) : Option Char :=
  if h : value.isValidChar then some (Char.ofNatAux value h) else none

/-- The character with a number, as an atom. -/
def Flags.ofNumber (flags : Flags) (value : Nat) (rest : List Char) :
    Except PatternFault (Atom × List Char) :=
  match charOf? value with
  | some c => .ok (flags.atom c, rest)
  | none => .error .escape

def hexDigits (flags : Flags) :
    (count : Nat) → (value : Nat) → List Char → Except PatternFault (Nat × List Char)
  | 0, value, text => .ok (value, text)
  | _ + 1, _, [] => .error .escape
  | count + 1, value, c :: rest =>
    match hexDigit? c with
    | some digit => hexDigits flags count (value * 16 + digit) (flags.skip rest)
    | none => .error .escape

/-- Read hexadecimal digits up to a closing brace; the count bounds the length of the text. -/
def hexUntilBrace (flags : Flags) :
    (count : Nat) → (digits : List Nat) → List Char → Except PatternFault (Nat × List Char)
  | 0, _, _ => .error .escape
  | _, _, [] => .error .escape
  | count + 1, digits, c :: rest =>
    let rest := flags.skip rest
    if c = '}' then
      let value := digits.reverse.foldl (fun value digit => value * 16 + digit) 0
      if digits.isEmpty || Nat.pow 2 32 ≤ value then .error .escape else .ok (value, rest)
    else match hexDigit? c with
      | some digit => hexUntilBrace flags count (digit :: digits) rest
      | none => .error .escape

/-- Read a character given by its number in hexadecimal, after the letter that tells how many
digits. -/
def hexEscape (flags : Flags) (count : Nat) (text : List Char) :
    Except PatternFault (Atom × List Char) :=
  match flags.skip text with
  | '{' :: rest => do
    let inner := flags.skip rest
    let (value, rest) ← hexUntilBrace flags (inner.length + 1) [] inner
    flags.ofNumber value rest
  | text => do
    let (value, rest) ← hexDigits flags count 0 text
    flags.ofNumber value rest

/-- The letters and hyphens at the front of a text, and the rest; the count bounds the length of the
text. -/
def boundaryName (flags : Flags) : (count : Nat) → List Char → List Char × List Char
  | 0, text => ([], text)
  | _, [] => ([], [])
  | count + 1, c :: rest =>
    if c.isAlpha || c = '-' then
      let (name, rest) := boundaryName flags count (flags.skip rest)
      (c :: name, rest)
    else ([], c :: rest)

def boundary? (name : List Char) : Option Look :=
  if name = "start".toList then some .wordStart
  else if name = "end".toList then some .wordFinish
  else if name = "start-half".toList then some .wordStartHalf
  else if name = "end-half".toList then some .wordFinishHalf
  else none

/-- Read what may follow the test for a word boundary: the name of a particular test in braces.
Braces without a name are a repetition and are left alone. -/
def boundaryEscape (flags : Flags) (text : List Char) : Except PatternFault (Atom × List Char) :=
  match text with
  | '{' :: rest =>
    let inner := flags.skip rest
    match inner with
    | [] => .error .escape
    | c :: _ =>
      if c.isAlpha || c = '-' then
        match boundaryName flags inner.length inner with
        | (name, '}' :: rest) =>
          match boundary? name with
          | some test => .ok (.look test, rest)
          | none => .error .escape
        | _ => .error .escape
      else .ok (.look .wordBoundary, text)
  | _ => .ok (.look .wordBoundary, text)

def escape (flags : Flags) : List Char → Except PatternFault (Atom × List Char)
  | [] => .error .escape
  | c :: rest =>
    match c with
    | 'x' => hexEscape flags 2 rest
    | 'u' => hexEscape flags 4 rest
    | 'U' => hexEscape flags 8 rest
    | 'd' => .ok (.set CharSet.digits, rest)
    | 'D' => .ok (.set (CharSet.negate CharSet.digits), rest)
    | 's' => .ok (.set CharSet.spaces, rest)
    | 'S' => .ok (.set (CharSet.negate CharSet.spaces), rest)
    | 'w' => .ok (.set CharSet.wordChars, rest)
    | 'W' => .ok (.set (CharSet.negate CharSet.wordChars), rest)
    | 'a' => .ok (flags.atom '\x07', rest)
    | 'f' => .ok (flags.atom '\x0c', rest)
    | 't' => .ok (flags.atom '\t', rest)
    | 'n' => .ok (flags.atom '\n', rest)
    | 'r' => .ok (flags.atom '\r', rest)
    | 'v' => .ok (flags.atom '\x0b', rest)
    | 'A' => .ok (.look .start, rest)
    | 'z' => .ok (.look .finish, rest)
    | 'b' => boundaryEscape flags rest
    | 'B' => .ok (.look .notWordBoundary, rest)
    | '<' => .ok (.look .wordStart, rest)
    | '>' => .ok (.look .wordFinish, rest)
    | c =>
      if c.isDigit then .error .backReference
      else if isEscapable c then .ok (flags.atom c, rest)
      else .error .escape

end Pattern

end Gatehouse
