/-
**Network addresses.**

IP addresses of both versions and socket addresses, which add a port and, for version six, a scope.

* `IpAddress.toText`, `SocketAddress.toText`: the canonical text of an address; of version six it
  replaces the first longest run of two or more zero groups by `::`;
* `IpAddress.parse?`, `SocketAddress.parse?`: reading any text of an address.
-/

import Gatehouse.Text.Split

namespace Gatehouse

/-- An IP address: four bytes, or eight groups of sixteen bits. -/
inductive IpAddress where
  | v4 (a b c d : UInt8)
  | v6 (groups : Vector UInt16 8)
deriving DecidableEq, Repr

/-- A socket address: an IP address and a port, with a scope that only version six uses. -/
structure SocketAddress where
  ip : IpAddress
  port : UInt16
  scope : UInt32
deriving DecidableEq, Repr

/-! ### Writing -/

namespace IpAddress

/-- Bytes in decimal with points between them. -/
def dotted (a b c d : UInt8) : String :=
  ".".intercalate ([a, b, c, d].map fun byte => toString byte.toNat)

/-- A group in lower-case hexadecimal. -/
def groupText (group : UInt16) : String := String.ofList (Nat.toDigits 16 group.toNat)

/-- Groups with colons between them. -/
def groupsText (groups : List UInt16) : String := ":".intercalate (groups.map groupText)

/-- How many zero groups a list begins with. -/
def zeroRun (groups : List UInt16) : Nat := (groups.takeWhile (· = 0)).length

/-- Start and length of the first longest run of zero groups. -/
def longestRun : List UInt16 → Nat × Nat
  | [] => (0, 0)
  | group :: rest =>
    let (start, length) := longestRun rest
    let here := zeroRun (group :: rest)
    if length ≤ here then (0, here) else (start + 1, length)

/-- The text of eight groups. -/
def compressed (groups : List UInt16) : String :=
  let (start, length) := longestRun groups
  if 1 < length then
    groupsText (groups.take start) ++ "::" ++ groupsText (groups.drop (start + length))
  else groupsText groups

/-- The byte pair of a group. -/
def bytesOf (group : UInt16) : UInt8 × UInt8 := ((group >>> 8).toUInt8, group.toUInt8)

/-- The text of an address. A version four address inside version six keeps its decimal bytes. -/
def toText : IpAddress → String
  | .v4 a b c d => dotted a b c d
  | .v6 groups =>
    match groups.toList with
    | [0, 0, 0, 0, 0, 0xFFFF, high, low] =>
      let (a, b) := bytesOf high
      let (c, d) := bytesOf low
      "::ffff:" ++ dotted a b c d
    | groups => compressed groups

end IpAddress

/-- The text of a socket address; an address of version six stands in square brackets. -/
def SocketAddress.toText (address : SocketAddress) : String :=
  match address.ip with
  | .v4 _ _ _ _ => address.ip.toText ++ ":" ++ toString address.port.toNat
  | .v6 _ =>
    let scope := if address.scope = 0 then "" else "%" ++ toString address.scope.toNat
    "[" ++ address.ip.toText ++ scope ++ "]:" ++ toString address.port.toNat

/-! ### Reading -/

namespace Network

/-- The value of a digit in base ten or sixteen, of either case. -/
def digit? (base : Nat) (c : Char) : Option Nat :=
  let value :=
    if '0' ≤ c ∧ c ≤ '9' then c.toNat - '0'.toNat
    else if 'a' ≤ c ∧ c ≤ 'f' then c.toNat - 'a'.toNat + 10
    else if 'A' ≤ c ∧ c ≤ 'F' then c.toNat - 'A'.toNat + 10
    else base
  if value < base then some value else none

/-- The values of the digits at the beginning of a text, and what follows them. -/
def digits (base : Nat) : List Char → List Nat × List Char
  | [] => ([], [])
  | c :: rest =>
    match digit? base c with
    | some value => let (others, left) := digits base rest; (value :: others, left)
    | none => ([], c :: rest)

/-- Read a number below a bound, of so many digits at most if a limit is given; a number that may
not begin with a zero is zero itself or begins with another digit. -/
def number? (base bound : Nat) (limit : Option Nat) (leadingZeros : Bool) (text : List Char) :
    Option (Nat × List Char) :=
  let (values, rest) := digits base text
  let value := values.foldl (fun value digit => value * base + digit) 0
  if values.isEmpty || limit.any (· < values.length) || bound ≤ value ||
      (!leadingZeros && 1 < values.length && values.head? == some 0) then none
  else some (value, rest)

/-- What follows a given character. -/
def expect? (expected : Char) : List Char → Option (List Char)
  | c :: rest => if c = expected then some rest else none
  | [] => none

/-- Read four decimal bytes with points between them. -/
def dotted? (text : List Char) : Option ((UInt8 × UInt8 × UInt8 × UInt8) × List Char) := do
  let byte? (text : List Char) := number? 10 256 (some 3) false text
  let (a, rest) ← byte? text
  let (b, rest) ← byte? (← expect? '.' rest)
  let (c, rest) ← byte? (← expect? '.' rest)
  let (d, rest) ← byte? (← expect? '.' rest)
  return ((a.toUInt8, b.toUInt8, c.toUInt8, d.toUInt8), rest)

/-- What follows the colon that separates groups; the first group needs none. -/
def separator? (first : Bool) (text : List Char) : Option (List Char) :=
  if first then some text else expect? ':' text

/-- Read at most `limit` groups with colons between them; the last two may be written as a version
four address, which ends the groups. The flag tells whether they are. -/
def groups (first : Bool) : (limit : Nat) → List Char → List UInt16 × Bool × List Char
  | 0, text => ([], false, text)
  | limit + 1, text =>
    match separator? first text with
    | none => ([], false, text)
    | some inner =>
      match if 0 < limit then dotted? inner else none with
      | some ((a, b, c, d), rest) =>
        ([a.toUInt16 <<< 8 ||| b.toUInt16, c.toUInt16 <<< 8 ||| d.toUInt16], true, rest)
      | none =>
        match number? 16 65536 (some 4) true inner with
        | some (value, rest) =>
          let (others, dotted, rest) := groups false limit rest
          (value.toUInt16 :: others, dotted, rest)
        | none => ([], false, text)

/-- Eight groups as an address. -/
def ofGroups? (groups : List UInt16) : Option IpAddress :=
  if h : groups.length = 8 then some (.v6 ⟨groups.toArray, by simpa using h⟩) else none

/-- Read an address of version six. A double colon stands for at least one zero group; a version
four address may only be at the end. -/
def version6? (text : List Char) : Option (IpAddress × List Char) := do
  let (head, dotted, rest) := groups true 8 text
  if head.length = 8 then return (← ofGroups? head, rest)
  if dotted then none
  let rest ← expect? ':' rest
  let rest ← expect? ':' rest
  let (tail, _, rest) := groups true (7 - head.length) rest
  let zeros := List.replicate (8 - head.length - tail.length) 0
  return (← ofGroups? (head ++ zeros ++ tail), rest)

/-- Read an address of version four. -/
def version4? (text : List Char) : Option (IpAddress × List Char) :=
  (dotted? text).map fun ((a, b, c, d), rest) => (.v4 a b c d, rest)

/-- Read a port with the colon before it. -/
def port? (text : List Char) : Option (UInt16 × List Char) := do
  let (value, rest) ← number? 10 65536 none true (← expect? ':' text)
  return (value.toUInt16, rest)

/-- Read a scope with the percent sign before it, if there is one. -/
def scopeAt (text : List Char) : UInt32 × List Char :=
  match (expect? '%' text).bind (number? 10 (Nat.pow 2 32) none true) with
  | some (value, rest) => (value.toUInt32, rest)
  | none => (0, text)

/-- Something read from the whole of a text. -/
def whole? {α : Type} : Option (α × List Char) → Option α
  | some (value, []) => some value
  | _ => none

end Network

open Network

/-- The address of a text. -/
def IpAddress.parse? (text : String) : Option IpAddress :=
  whole? ((version4? text.toList).orElse fun _ => version6? text.toList)

/-- The socket address of a text: `address:port`, or `[address%scope]:port` for version six. -/
def SocketAddress.parse? (text : String) : Option SocketAddress :=
  let v4 : Option (SocketAddress × List Char) := do
    let (ip, rest) ← version4? text.toList
    let (port, rest) ← port? rest
    return (⟨ip, port, 0⟩, rest)
  let v6 : Option (SocketAddress × List Char) := do
    let (ip, rest) ← version6? (← expect? '[' text.toList)
    let (scope, rest) := scopeAt rest
    let (port, rest) ← port? (← expect? ']' rest)
    return (⟨ip, port, scope⟩, rest)
  whole? (v4.orElse fun _ => v6)

end Gatehouse
