/-
**Session tokens.**

A token is a number of 128 bits. It is written as thirty-two hexadecimal digits in five groups with
hyphens between them.

* `Token.toText`: the written form;
* `Token.parse?`: reads the written form in either case, also without hyphens, in braces, or after
  the name of the format;
* `Token.ofRandom`: a new token.
-/

import Gatehouse.Text.Split

namespace Gatehouse

/-- A token: thirty-two hexadecimal digits. -/
structure Token where
  digits : Vector (Fin 16) 32
deriving DecidableEq

namespace Token

/-- The lengths of the groups in the written form. -/
def groupLengths : List Nat := [8, 4, 4, 4, 12]

/-- A hexadecimal digit, in small letters. -/
def digitChar (digit : Fin 16) : Char :=
  if digit.val < 10 then Char.ofNat (48 + digit.val) else Char.ofNat (87 + digit.val)

/-- The value of a hexadecimal digit of either case. -/
def digit? (c : Char) : Option (Fin 16) :=
  if '0' ≤ c ∧ c ≤ '9' then some (Fin.ofNat 16 (c.toNat - 48))
  else if 'a' ≤ c ∧ c ≤ 'f' then some (Fin.ofNat 16 (c.toNat - 87))
  else if 'A' ≤ c ∧ c ≤ 'F' then some (Fin.ofNat 16 (c.toNat - 55))
  else none

/-- Cut a text into pieces of the given lengths. -/
def cut : List Nat → List Char → List (List Char)
  | [], _ => []
  | length :: lengths, text => text.take length :: cut lengths (text.drop length)

/-- Join pieces with hyphens between them. -/
def joinHyphens : List (List Char) → List Char
  | [] => []
  | [piece] => piece
  | piece :: rest => piece ++ '-' :: joinHyphens rest

/-- The characters of the written form. -/
def toChars (token : Token) : List Char :=
  joinHyphens (cut groupLengths (token.digits.toList.map digitChar))

/-- The written form. -/
def toText (token : Token) : String := String.ofList token.toChars

/-- The token of thirty-two digits. -/
def ofDigits? (text : List Char) : Option Token :=
  match text.mapM digit? with
  | none => none
  | some digits => if h : digits.length = 32 then some ⟨digits.toArray, by simpa using h⟩ else none

/-- The token of digits in hyphenated groups. -/
def ofGroups? (text : List Char) : Option Token :=
  let pieces := Text.splitAll '-' text
  if pieces.map List.length = groupLengths then ofDigits? pieces.flatten else none

/-- What stands between braces. -/
def unbraced? (text : List Char) : Option (List Char) :=
  match text with
  | '{' :: rest => if rest.getLast? = some '}' then some rest.dropLast else none
  | _ => none

/-- Read a token in any of its forms. -/
def ofChars? (text : List Char) : Option Token :=
  (((ofDigits? text).orElse fun _ => ofGroups? text).orElse fun _ =>
    (unbraced? text).bind ofGroups?).orElse fun _ =>
      (Text.dropPrefix? "urn:uuid:".toList text).bind ofGroups?

/-- Read a token in any of its forms. -/
def parse? (text : String) : Option Token := ofChars? text.toList

/-- The token of sixteen random bytes. Two digits are set: they say that all others are random. -/
def ofRandom (bytes : List UInt8) : Token :=
  let half (index : Nat) : Nat :=
    let byte := ((bytes[index / 2]?).getD 0).toNat
    if index % 2 = 0 then byte / 16 else byte % 16
  ⟨Vector.ofFn fun index =>
    if index.val = 12 then 4
    else if index.val = 16 then Fin.ofNat 16 (8 + half 16 % 4)
    else Fin.ofNat 16 (half index.val)⟩

end Token

end Gatehouse
