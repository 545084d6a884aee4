/-
**Bcrypt.**

The password hash over Blowfish with a cost that doubles the work with every step, and its written
form: prefix, cost, and salt with digest in an alphabet of its own.

* `Bcrypt.digest`: twenty-three bytes from cost, salt and password; only the first seventy-two bytes
  of the password and its terminator count;
* `Bcrypt.hash`: the written form;
* `Bcrypt.verify`: whether a password gives the digest of a written form.
-/

import Gatehouse.Access.Error
import Gatehouse.Password.Blowfish

namespace Gatehouse.Bcrypt

open Text (Bytes)
open Digest Blowfish

def alphabet : Base64.Alphabet :=
  Text.encode "./ABCDEFGHIJKLMNOPQRSTUVWXYZabcdefghijklmnopqrstuvwxyz0123456789"

def costRange : Nat × Nat := (4, 31)

/-- How many bytes of a key count. -/
def keyLimit : Nat := 72

/-- The key of a password: a zero byte ends it, and only the first bytes count. -/
def keyOf (password : Bytes) : Bytes := (password ++ [0]).take keyLimit

/-- Fill the table so many times under the key and under the salt in turn. -/
def strengthen (salt key : Bytes) : (count : Nat) → Blowfish.Table → Blowfish.Table
  | 0, table => table
  | count + 1, table => strengthen salt key count (expand [] salt (expand [] key table))

def encryptTimes (table : Blowfish.Table) : (count : Nat) → Halves → Halves
  | 0, halves => halves
  | count + 1, halves => encryptTimes table count (encrypt table halves)

def plainWords : List Halves :=
  [⟨0x4f727068, 0x65616e42⟩, ⟨0x65686f6c, 0x64657253⟩, ⟨0x63727944, 0x6f756274⟩]

def digest (cost : Nat) (salt password : Bytes) : Bytes :=
  let key := keyOf password
  let table := strengthen salt key (Nat.pow 2 cost) (expand salt key initial)
  let bytes := plainWords.flatMap fun words =>
    let halves := encryptTimes table 64 words
    toBytes 4 halves.left.toNat ++ toBytes 4 halves.right.toNat
  bytes.take 23

/-! ### The written form -/

/-- A written hash in its parts; salt and digest are still in symbols. -/
structure Written where
  cost : Nat
  salt : List Char
  digest : List Char
deriving DecidableEq, Repr

def symbols (bytes : Bytes) : List Char :=
  (Base64.encode alphabet false bytes).map fun byte => Char.ofNat byte.toNat

def costDigits (cost : Nat) : List Char :=
  [Char.ofNat (48 + cost / 10 % 10), Char.ofNat (48 + cost % 10)]

def prefixes : List (List Char) := ["2y".toList, "2b".toList, "2a".toList, "2x".toList]

/-- Read a cost: decimal digits, perhaps after a plus sign, for a number of thirty-two bits. -/
def readCost? (text : List Char) : Option Nat :=
  let digits := (Text.dropPrefix? ['+'] text).getD text
  if digits.isEmpty || !digits.all Char.isDigit then none
  else
    let value := digits.foldl (fun value digit => value * 10 + (digit.toNat - 48)) 0
    if value < Nat.pow 2 32 then some value else none

/-- The parts of a written hash. Empty fields between dollar signs do not count. -/
def split? (hash : List Char) : Option Written :=
  match (Text.splitAll '$' hash).filter fun field => !field.isEmpty with
  | [name, cost, rest] =>
    if prefixes.contains name ∧ rest.length = 53 then
      (readCost? cost).map fun cost => ⟨cost, rest.take 22, rest.drop 22⟩
    else none
  | _ => none

def unsymbols? (text : List Char) : Option Bytes :=
  match Base64.decode alphabet false (Text.encode (String.ofList text)) with
  | .ok bytes => some bytes
  | .error _ => none

def admitsCost (cost : Nat) : Bool := costRange.1 ≤ cost && cost ≤ costRange.2

/-- The written hash of a password under a salt. -/
def hash (cost : Nat) (salt password : Bytes) : Except HashFault String :=
  if admitsCost cost then
    .ok (String.ofList ("$2b$".toList ++ costDigits cost ++ '$' :: symbols salt ++
      symbols (digest cost salt password)))
  else .error (.bcrypt s!"Cost not allowed: {cost}")

/-- Whether a password gives the digest of a written hash. -/
def verify (password : Bytes) (hash : String) : Except HashFault Bool :=
  match split? hash.toList with
  | none => .error (.bcrypt ("Invalid hash: " ++ hash))
  | some written =>
    match unsymbols? written.salt, unsymbols? written.digest with
    | some salt, some expected =>
      if !admitsCost written.cost then .error (.bcrypt s!"Cost not allowed: {written.cost}")
      else .ok (expected = digest written.cost salt password)
    | _, _ => .error (.bcrypt "Invalid base64 in the hash")

end Gatehouse.Bcrypt
