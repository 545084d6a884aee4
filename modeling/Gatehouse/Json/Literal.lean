/-
**String literals of JSON.**

* `decodeLiteral?`: the text between the quotes of a literal; it is refused when an escape names
  half of a surrogate pair or the bytes are no UTF-8;
* `encodeLiteral`: a text as a literal, with escapes only where they are required.
-/

import Gatehouse.Text.Utf8

namespace Gatehouse.Json

open Text (Bytes)

def hexValue (byte : UInt8) : Nat :=
  if byte ≤ 0x39 then byte.toNat - 0x30
  else if byte ≤ 0x46 then byte.toNat - 0x37
  else byte.toNat - 0x57

/-- The byte that a one-letter escape stands for. -/
def simpleEscape? (byte : UInt8) : Option UInt8 :=
  match byte with
  | 0x22 => some 0x22
  | 0x5C => some 0x5C
  | 0x2F => some 0x2F
  | 0x62 => some 0x08
  | 0x66 => some 0x0C
  | 0x6E => some 0x0A
  | 0x72 => some 0x0D
  | 0x74 => some 0x09
  | _ => none

def codeUnit (a b c d : UInt8) : Nat :=
  ((hexValue a * 16 + hexValue b) * 16 + hexValue c) * 16 + hexValue d

/-- The UTF-8 bytes of a code point that is no surrogate. -/
def encodePoint (point : Nat) : Bytes := Text.encode (String.ofList [Char.ofNat point])

/-- Replace the escapes of a literal's content by the bytes they stand for. -/
def unescape? : Bytes → Option Bytes
  | 0x5C :: 0x75 :: a :: b :: c :: d :: 0x5C :: 0x75 :: a' :: b' :: c' :: d' :: rest =>
    let high := codeUnit a b c d
    let low := codeUnit a' b' c' d'
    if 0xD800 ≤ high ∧ high < 0xDC00 then
      if 0xDC00 ≤ low ∧ low < 0xE000 then
        (unescape? rest).map
          (encodePoint (0x10000 + (high - 0xD800) * 0x400 + (low - 0xDC00)) ++ ·)
      else none
    else if 0xDC00 ≤ high ∧ high < 0xE000 then none
    else (unescape? (0x5C :: 0x75 :: a' :: b' :: c' :: d' :: rest)).map (encodePoint high ++ ·)
  | 0x5C :: 0x75 :: a :: b :: c :: d :: rest =>
    let unit := codeUnit a b c d
    if 0xD800 ≤ unit ∧ unit < 0xE000 then none
    else (unescape? rest).map (encodePoint unit ++ ·)
  | 0x5C :: letter :: rest => do
    let byte ← simpleEscape? letter
    let others ← unescape? rest
    return byte :: others
  | byte :: rest => (unescape? rest).map (byte :: ·)
  | [] => some []
termination_by bytes => bytes.length

/-- The text written by a literal's content. -/
def decodeLiteral? (content : Bytes) : Option String := (unescape? content).bind Text.decode?

def hexDigit (value : Nat) : Char := if value < 10 then Char.ofNat (48 + value)
  else Char.ofNat (87 + value)

def encodeChar (c : Char) : List Char :=
  match c with
  | '"' => ['\\', '"']
  | '\\' => ['\\', '\\']
  | '\x08' => ['\\', 'b']
  | '\x0c' => ['\\', 'f']
  | '\n' => ['\\', 'n']
  | '\r' => ['\\', 'r']
  | '\t' => ['\\', 't']
  | c =>
    if c.toNat < 0x20 then ['\\', 'u', '0', '0', hexDigit (c.toNat / 16), hexDigit (c.toNat % 16)]
    else [c]

def encodeLiteral (text : String) : String :=
  String.ofList ('"' :: text.toList.flatMap encodeChar ++ ['"'])

end Gatehouse.Json
