/-
**Tagged data.**

Key files hold data in nested elements, each a tag, the length of its content, and the content.

* `Der.parse?`: reads the elements of a byte string;
* `Der.firstString?`: the first string of bits or bytes, where key files hold the key itself;
* `Der.identifiers`: the identifiers of algorithms.

Both look into sequences only, not into sets and tagged elements.
-/

import Gatehouse.Digest.Words

namespace Gatehouse

open Text (Bytes)

/-- An element. What is never looked into is kept as `other`. -/
inductive Der where
  | sequence (items : List Der)
  | identifier (arcs : List Nat)
  | string (content : Bytes)
  | other

namespace Der

/-! ### Reading -/

/-- A number in groups of seven bits, all but the last one marked. -/
def base128? (value : Nat) : Bytes → Option (Nat × Bytes)
  | byte :: rest =>
    let value := value * 128 + byte.toNat % 128
    if byte < 0x80 then some (value, rest) else base128? value rest
  | [] => none

/-- The class and the number of a tag; class zero is that of the standard types. -/
def tag? : Bytes → Option ((Nat × Nat) × Bytes)
  | byte :: rest =>
    if byte.toNat % 32 = 31 then
      (base128? 0 rest).map fun (number, rest) => ((byte.toNat / 64, number), rest)
    else some ((byte.toNat / 64, byte.toNat % 32), rest)
  | [] => none

/-- The length of a content; the long form says first how many bytes it takes, eight at most. -/
def length? : Bytes → Option (Nat × Bytes)
  | byte :: rest =>
    if byte < 0x80 then some (byte.toNat, rest)
    else
      let count := byte.toNat - 0x80
      if count ≤ 8 && count ≤ rest.length then
        some (Digest.ofBytes (rest.take count), rest.drop count)
      else none
  | [] => none

/-- The arcs of an identifier after the first two; the count bounds their number. -/
def arcs? : (count : Nat) → Bytes → Option (List Nat)
  | _, [] => some []
  | 0, _ => none
  | count + 1, bytes => do
    let (arc, rest) ← base128? 0 bytes
    return arc :: (← arcs? count rest)

/-- The arcs of an identifier; the first byte holds two of them. -/
def identifier? : Bytes → Option (List Nat)
  | byte :: rest =>
    let first := min (byte.toNat / 40) 2
    (arcs? rest.length rest).map fun arcs => first :: (byte.toNat - 40 * first) :: arcs
  | [] => none

/-- The content of a string of bits, without the count of unused bits before it. -/
def bits? : Bytes → Option Bytes
  | unused :: content => if unused.toNat ≤ content.length * 8 then some content else none
  | [] => some []

def isPrintable (byte : UInt8) : Bool :=
  (0x30 ≤ byte && byte ≤ 0x39) || (0x41 ≤ byte && byte ≤ 0x5A) || (0x61 ≤ byte && byte ≤ 0x7A) ||
    byte ∈ Text.encode " '()+,-./:=?"

/-- Whether a content is a point in time: twelve digits and a letter. -/
def isTime (content : Bytes) : Bool :=
  content.length = 13 && (content.take 12).all (fun byte => 0x30 ≤ byte && byte ≤ 0x39) &&
    content.getLast? == some 0x5A

/-- Whether a content is admissible for the number of its type. -/
def isAdmissible (number : Nat) (content : Bytes) : Bool :=
  if number = 0x01 then content.length = 1
  else if number = 0x0C || number = 0x14 then (Text.decode? content).isSome
  else if number = 0x13 then content.all isPrintable
  else if number = 0x16 then content.all (· < 0x80)
  else if number = 0x17 then isTime content
  else true

/-- The elements of a byte string, of which there is at least one; the count bounds its length. -/
def elements? : (count : Nat) → Bytes → Option (List Der)
  | 0, _ => none
  | count + 1, bytes => do
    let ((tagClass, number), rest) ← tag? bytes
    let (length, rest) ← length? rest
    if rest.length < length then none
    let content := rest.take length
    let element ←
      if tagClass ≠ 0 then some other
      else if number = 0x10 then (elements? count content).map sequence
      else if number = 0x11 then (elements? count content).map fun _ => other
      else if number = 0x06 then (identifier? content).map identifier
      else if number = 0x03 then (bits? content).map string
      else if number = 0x04 then some (string content)
      else if isAdmissible number content then some other
      else none
    match rest.drop length with
    | [] => return [element]
    | rest => return element :: (← elements? count rest)

def parse? (bytes : Bytes) : Option (List Der) := elements? bytes.length bytes

/-! ### Looking into elements -/

mutual

/-- The first string of bits or bytes in an element. -/
def firstString? : Der → Option Bytes
  | sequence items => firstStringAmong? items
  | string content => some content
  | identifier _ | other => none

def firstStringAmong? : List Der → Option Bytes
  | [] => none
  | item :: rest => (firstString? item).orElse fun _ => firstStringAmong? rest

end

mutual

/-- The identifiers in an element, in their order. -/
def identifiers : Der → List (List Nat)
  | sequence items => identifiersAmong items
  | identifier arcs => [arcs]
  | string _ | other => []

def identifiersAmong : List Der → List (List Nat)
  | [] => []
  | item :: rest => identifiers item ++ identifiersAmong rest

end

end Der

end Gatehouse
