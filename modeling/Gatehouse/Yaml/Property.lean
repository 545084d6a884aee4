/-
**Anchors, tags and directives of YAML.**

* `readName`: the name of an anchor or alias;
* `readTag`: a tag as handle and suffix, with its percent escapes decoded;
* `readDirective`: a `%YAML` or `%TAG` line.
-/

import Gatehouse.Yaml.Scalar

namespace Gatehouse.Yaml

def nameChars (rest : List Char) : List Char × List Char := rest.span isNameChar

def endsName : List Char → Bool
  | [] => true
  | c :: _ => isBlankOrBreak c || c ∈ ['?', ':', ',', ']', '}', '%', '@', '\x60']

def readName (place : Place) (rest : List Char) : Except Fault (String × Place × List Char) :=
  let (name, rest) := nameChars rest
  if name.isEmpty || !endsName rest then .error .badAnchor
  else .ok (String.ofList name, place.forward name.length, rest)

/-! ### Tags -/

/-- The characters of a tag's suffix other than escapes; inside angle brackets also the comma and
the square brackets. -/
def isTagChar (bracketed : Bool) (c : Char) : Bool :=
  isNameChar c || c ∈ [';', '/', '?', ':', '@', '&', '=', '+', '$', '.', '!', '~', '*', '\x27',
    '(', ')'] || (bracketed && c ∈ [',', '[', ']'])

/-- One byte written as a percent sign and two hexadecimal digits. -/
def percentByte? : List Char → Option (Nat × List Char)
  | '%' :: a :: b :: rest => do
    let high ← hexDigit? a
    let low ← hexDigit? b
    return (high * 16 + low, rest)
  | _ => none

/-- How many bytes the UTF-8 form of a character has that begins with the given byte. -/
def widthOfLead? (byte : Nat) : Option Nat :=
  if byte < 0x80 then some 1
  else if byte / 32 = 6 then some 2
  else if byte / 16 = 14 then some 3
  else if byte / 8 = 30 then some 4
  else none

/-- Read `count` further bytes of a character whose bytes so far make `value`. -/
def percentTail? (value : Nat) : Nat → List Char → Option (Nat × List Char)
  | 0, rest => some (value, rest)
  | count + 1, rest => do
    let (byte, rest) ← percentByte? rest
    if byte / 64 = 2 then percentTail? (value * 64 + byte % 64) count rest else none

/-- Read one character written in percent escapes, with the number of characters it takes. -/
def percentChar? (rest : List Char) : Option (Char × Nat × List Char) := do
  let (lead, rest) ← percentByte? rest
  let width ← widthOfLead? lead
  let low := if width = 1 then lead else lead % Nat.pow 2 (7 - width)
  let (value, rest) ← percentTail? low (width - 1) rest
  return (Char.ofNat value, 3 * width, rest)

/-- Read the characters of a tag, at most as many as there is `fuel`. -/
def tagCharsWithin (bracketed : Bool) : Nat → List Char → Except Fault (List Char × Nat × List Char)
  | 0, rest => .ok ([], 0, rest)
  | fuel + 1, rest =>
    match rest with
    | '%' :: _ =>
      match percentChar? rest with
      | none => .error .badTag
      | some (c, length, rest) => do
        let (chars, count, rest) ← tagCharsWithin bracketed fuel rest
        return (c :: chars, count + length, rest)
    | c :: others =>
      if isTagChar bracketed c then do
        let (chars, count, rest) ← tagCharsWithin bracketed fuel others
        return (c :: chars, count + 1, rest)
      else .ok ([], 0, rest)
    | [] => .ok ([], 0, [])

/-- The characters of a tag, how many characters they are written with, and what follows. -/
def tagChars (bracketed : Bool) (rest : List Char) :
    Except Fault (List Char × Nat × List Char) :=
  tagCharsWithin bracketed rest.length rest

/-- The handle at the beginning of a tag: an exclamation mark, a name, and perhaps another one. -/
def handleChars : List Char → Option (List Char × List Char)
  | '!' :: rest =>
    let (name, rest) := nameChars rest
    match rest with
    | '!' :: rest => some ('!' :: name ++ ['!'], rest)
    | rest => some ('!' :: name, rest)
  | _ => none

/-- Read a tag with its exclamation mark: `!<uri>`, `!handle!suffix`, `!suffix`, or `!` alone, which
has an empty handle. -/
def readTag (inFlow : Bool) (place : Place) (rest : List Char) :
    Except Fault (String × String × Place × List Char) := do
  let (handle, suffix, length, rest) ← match rest with
    | '!' :: '<' :: rest =>
      let (chars, length, rest) ← tagChars true rest
      match chars, rest with
      | [], _ => throw Fault.badTag
      | chars, '>' :: rest => pure ([], chars, length + 3, rest)
      | _, _ => throw Fault.badTag
    | rest =>
      match handleChars rest with
      | none => throw Fault.badTag
      | some (handle, rest) =>
        let (chars, length, rest) ← tagChars false rest
        if 1 < handle.length && handle.getLast? == some '!' then
          if chars.isEmpty then throw Fault.badTag
          else pure (handle, chars, handle.length + length, rest)
        else
          let suffix := handle.drop 1 ++ chars
          if suffix.isEmpty then pure ([], ['!'], 1, rest)
          else pure (['!'], suffix, handle.length + length, rest)
  if endsWord rest || (inFlow && rest.head? == some ',') then
    return (String.ofList handle, String.ofList suffix, place.forward length, rest)
  else throw Fault.badTag

/-! ### Directives -/

def skipBlanks (rest : List Char) : List Char := rest.dropWhile isBlank

def readVersionPart (rest : List Char) : Option (Nat × List Char) :=
  let (digits, rest) := rest.span Char.isDigit
  if digits.isEmpty || 9 < digits.length then none
  else some (digits.foldl (fun value c => value * 10 + (c.toNat - '0'.toNat)) 0, rest)

def readVersion (rest : List Char) : Except Fault (Token × List Char) :=
  match readVersionPart (skipBlanks rest) with
  | some (major, '.' :: rest) =>
    match readVersionPart rest with
    | some (minor, rest) => .ok (.versionDirective major minor, rest)
    | none => .error .badDirective
  | _ => .error .badDirective

def readTagDirective (rest : List Char) : Except Fault (Token × List Char) := do
  match handleChars (skipBlanks rest) with
  | none => throw Fault.badDirective
  | some (handle, rest) =>
    if 1 < handle.length && handle.getLast? != some '!' then throw Fault.badDirective
    else if !rest.head?.any isBlank then throw Fault.badDirective
    else
      let (stem, _, rest) ← tagChars true (skipBlanks rest)
      if stem.isEmpty || !endsWord rest then throw Fault.badDirective
      else return (.tagDirective (String.ofList handle) (String.ofList stem), rest)

/-- Read a directive after its percent sign, up to the end of its line. -/
def readDirective (place : Place) (rest : List Char) :
    Except Fault (Token × Place × List Char) := do
  let (name, others) := nameChars rest
  if name.isEmpty || !endsWord others then throw Fault.badDirective
  let (token, left) ←
    if name = "YAML".toList then readVersion others
    else if name = "TAG".toList then readTagDirective others
    else throw Fault.badDirective
  match skipLineEnd (place.forward (rest.length - left.length)) left with
  | some (place, rest) => return (token, place, rest)
  | none => throw Fault.badDirective

end Gatehouse.Yaml
