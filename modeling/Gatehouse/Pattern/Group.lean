/-
**Counted repetitions and the beginnings of groups.**

What may stand after an opening brace and after an opening parenthesis.

* `Pattern.bounds`: reads the bounds of a repetition;
* `Pattern.opening`: reads what a parenthesis begins.
-/

import Gatehouse.Pattern.Escape

namespace Gatehouse

namespace Pattern

/-! ### Repetitions -/

/-- The digits at the front of a text, and the rest; the count bounds the length of the text. -/
def digitsOf (flags : Flags) : (count : Nat) → List Char → List Nat × List Char
  | count + 1, c :: rest =>
    if c.isDigit then
      let (digits, rest) := digitsOf flags count (flags.skip rest)
      ((c.toNat - 48) :: digits, rest)
    else ([], c :: rest)
  | _, text => ([], text)

def skipBlanks (flags : Flags) (text : List Char) : List Char :=
  match text.dropWhile Text.isBlank with
  | [] => []
  | rest => if rest.length < text.length then flags.skip rest else rest

/-- Read a number of thirty-two bits with blanks around it. -/
def decimal (flags : Flags) (text : List Char) : Except PatternFault (Nat × List Char) :=
  let text := text.dropWhile Text.isBlank
  let (digits, rest) := digitsOf flags text.length text
  let value := digits.foldl (fun value digit => value * 10 + digit) 0
  if digits.isEmpty || Nat.pow 2 32 ≤ value then .error .repetition
  else .ok (value, skipBlanks flags rest)

/-- What follows a question mark, which makes a repetition short and does not change what
matches. -/
def skipLazy : List Char → List Char
  | '?' :: rest => rest
  | text => text

/-- Read the bounds of a counted repetition after its opening brace. -/
def bounds (flags : Flags) (text : List Char) :
    Except PatternFault ((Nat × Option Nat) × List Char) := do
  let (least, rest) ← decimal flags (flags.skip text)
  match rest with
  | '}' :: rest => return ((least, some least), skipLazy (flags.skip rest))
  | ',' :: rest =>
    match flags.skip rest with
    | '}' :: rest => return ((least, none), skipLazy (flags.skip rest))
    | rest =>
      let (most, rest) ← decimal flags rest
      match rest with
      | '}' :: rest =>
        if most < least then .error .repetition
        return ((least, some most), skipLazy (flags.skip rest))
      | _ => .error .repetition
  | _ => .error .repetition

/-! ### Groups -/

/-- Set or clear the flag of a letter; two letters are accepted without effect. -/
def Flags.set? (flags : Flags) (letter : Char) (value : Bool) : Option Flags :=
  match letter with
  | 'i' => some { flags with ignoreCase := value }
  | 'm' => some { flags with multiLine := value }
  | 's' => some { flags with dotAll := value }
  | 'R' => some { flags with crlf := value }
  | 'x' => some { flags with freeSpacing := value }
  | 'U' | 'u' => some flags
  | _ => none

/-- The letters of flags read so far. -/
structure FlagLetters where
  flags : Flags
  negated : Bool
  seen : List Char

/-- Read flags up to a colon or a closing parenthesis, which is left. -/
def flagLetters : List Char → FlagLetters → Except PatternFault (Flags × List Char)
  | [], _ => .error .flags
  | c :: rest, read =>
    if c = ':' || c = ')' then .ok (read.flags, c :: rest)
    else if c = '-' then
      let dangling := match rest with
        | next :: _ => next = ':' || next = ')'
        | [] => true
      if read.negated || dangling then .error .flags
      else flagLetters rest { read with negated := true }
    else match read.flags.set? c (!read.negated) with
      | some flags =>
        if read.seen.contains c then .error .flags
        else flagLetters rest { read with flags := flags, seen := c :: read.seen }
      | none => .error .flags

def isNameChar (first : Bool) (c : Char) : Bool :=
  if first then c = '_' || Text.isAlphabetic c
  else c = '_' || c = '.' || c = '[' || c = ']' || Text.isAlphabetic c || Text.isNumeric c

def groupName (text : List Char) : Except PatternFault (List Char × List Char) :=
  match Text.splitFirst? '>' text with
  | some (first :: others, rest) =>
    if isNameChar true first && others.all (isNameChar false) then .ok (first :: others, rest)
    else .error .groupName
  | _ => .error .groupName

/-- What an opening parenthesis begins. -/
inductive Opening where
  /-- A group that remembers what it matches, perhaps under a name. -/
  | capture (name : Option (List Char))
  /-- A group with flags of its own. -/
  | plain (flags : Flags)
  /-- Flags for the rest of the group around it. -/
  | flags (flags : Flags)

def opening (flags : Flags) (text : List Char) : Except PatternFault (Opening × List Char) :=
  match flags.skip text with
  | '?' :: '=' :: _ | '?' :: '!' :: _ | '?' :: '<' :: '=' :: _ | '?' :: '<' :: '!' :: _ =>
    .error .lookAround
  | '?' :: 'P' :: '<' :: rest | '?' :: '<' :: rest => do
    let (name, rest) ← groupName rest
    return (.capture (some name), rest)
  | '?' :: rest => do
    let (chosen, after) ← flagLetters rest ⟨flags, false, []⟩
    match after with
    | ':' :: after => return (.plain chosen, after)
    | _ :: after =>
      if rest.head? = some ')' then .error .flags
      return (.flags chosen, after)
    | [] => .error .flags
  | text => .ok (.capture none, text)

end Pattern

end Gatehouse
