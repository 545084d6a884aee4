/-
**Tokens of JSON.**

A byte string is cut into tokens from left to right, one byte at a time. The content of a string
literal stays as it is written: it is decoded only where it is read (`Gatehouse.Json.Literal`).

* `Mode.advance`: what one byte adds;
* `tokens?`: all tokens of a byte string, when it has only well-formed ones.
-/

import Gatehouse.Text.Utf8

namespace Gatehouse.Json

open Text (Bytes)

/-- A token: punctuation, the content of a string literal, or a bare word. -/
inductive Token where
  | openObject
  | closeObject
  | openArray
  | closeArray
  | colon
  | comma
  | string (content : Bytes)
  | word (letters : Bytes)
deriving DecidableEq, Repr

/-- Where the reader stands: between tokens, in a bare word, or in a string literal, there perhaps
after a backslash or with hexadecimal digits to come. What was read is kept in reverse. -/
inductive Mode where
  | between
  | word (read : Bytes)
  | string (read : Bytes)
  | escaped (read : Bytes)
  | codePoint (missing : Nat) (read : Bytes)
deriving DecidableEq, Repr

def isSpace (byte : UInt8) : Bool := byte == 0x20 || byte == 0x09 || byte == 0x0A || byte == 0x0D

/-- Bytes of numbers and of the three literal names. -/
def isWordByte (byte : UInt8) : Bool :=
  (0x30 ≤ byte && byte ≤ 0x39) || (0x61 ≤ byte && byte ≤ 0x7A) || (0x41 ≤ byte && byte ≤ 0x5A) ||
    byte == 0x2B || byte == 0x2D || byte == 0x2E

def isHexByte (byte : UInt8) : Bool :=
  (0x30 ≤ byte && byte ≤ 0x39) || (0x61 ≤ byte && byte ≤ 0x66) || (0x41 ≤ byte && byte ≤ 0x46)

def punctuation? (byte : UInt8) : Option Token :=
  match byte with
  | 0x7B => some .openObject
  | 0x7D => some .closeObject
  | 0x5B => some .openArray
  | 0x5D => some .closeArray
  | 0x3A => some .colon
  | 0x2C => some .comma
  | _ => none

/-- The tokens a byte completes between two tokens, and where the reader stands after it. -/
def start (byte : UInt8) : Option (List Token × Mode) :=
  if isSpace byte then some ([], .between)
  else if byte = 0x22 then some ([], .string [])
  else if isWordByte byte then some ([], .word [byte])
  else (punctuation? byte).map fun token => ([token], .between)

/-- The tokens a byte completes, and where the reader stands after it. -/
def Mode.advance : Mode → UInt8 → Option (List Token × Mode)
  | .between, byte => start byte
  | .word read, byte =>
    if isWordByte byte then some ([], .word (byte :: read))
    else (start byte).map fun (tokens, mode) => (.word read.reverse :: tokens, mode)
  | .string read, byte =>
    if byte = 0x22 then some ([.string read.reverse], .between)
    else if byte = 0x5C then some ([], .escaped (byte :: read))
    else if byte < 0x20 then none
    else some ([], .string (byte :: read))
  | .escaped read, byte =>
    if byte = 0x75 then some ([], .codePoint 4 (byte :: read))
    else if byte ∈ [0x22, 0x5C, 0x2F, 0x62, 0x66, 0x6E, 0x72, 0x74] then
      some ([], .string (byte :: read))
    else none
  | .codePoint missing read, byte =>
    if isHexByte byte then
      some ([], if missing ≤ 1 then .string (byte :: read)
        else .codePoint (missing - 1) (byte :: read))
    else none

def tokensFrom? : Mode → Bytes → Option (List Token)
  | .between, [] => some []
  | .word read, [] => some [.word read.reverse]
  | _, [] => none
  | mode, byte :: rest => do
    let (tokens, next) ← mode.advance byte
    let others ← tokensFrom? next rest
    return tokens ++ others

def tokens? (bytes : Bytes) : Option (List Token) := tokensFrom? .between bytes

end Gatehouse.Json
